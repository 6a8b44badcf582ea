import DgxSpark.Slab.PowerLoss

/-
This file reads a slot as one block: a completed write shows its block in its slot and leaves the
other slots alone, and a read of a shown block returns it or fails by its header.
-/

namespace DgxSpark.Slab

open LittleEndian Crc32

/-- A write loop that ends has put its data in place and changed nothing else. -/
structure Wrote (before : Medium) (data : List UInt8) (offset : Nat) (progress : Progress) : Prop where
  frame : Medium.Frame offset (offset + data.length) before progress.medium
  holds : progress.rest.isSome → progress.medium.Holds data offset

theorem wrote_nil (medium : Medium) (offset : Nat) (rest : Option (List Nat)) :
    Wrote medium [] offset ⟨medium, rest⟩ :=
  ⟨Medium.Frame.refl _ _ _, fun _ _ _ found => by simp at found⟩

theorem wrote_stopped (medium : Medium) (data : List UInt8) (offset : Nat) :
    Wrote medium data offset ⟨medium, none⟩ :=
  ⟨Medium.Frame.refl _ _ _, fun done => by cases done⟩

/-- One call writes a front part, the rest of the loop the part behind it. -/
theorem Wrote.cons {medium : Medium} {data : List UInt8} {offset count : Nat} {progress : Progress}
    (inside : count ≤ data.length)
    (rest : Wrote (medium.pwrite (data.take count) offset) (data.drop count) (offset + count) progress) :
    Wrote medium data offset progress := by
  have size : (data.take count).length = count := List.length_take_of_le inside
  have call := Medium.pwrite_frame medium (data.take count) offset
  have behind := rest.frame
  rw [size] at call
  rw [List.length_drop] at behind
  refine ⟨(call.mono (le_refl _) (by omega)).trans (behind.mono (by omega) (by omega)), ?_⟩
  intro done
  have front := (Medium.pwrite_holds medium (data.take count) offset).frame behind (by omega)
  have back := rest.holds done
  rw [← List.take_append_drop count data]
  exact front.append (by rw [size]; exact back)

theorem pwriteAll_wrote (medium : Medium) (data : List UInt8) (offset : Nat) (replies : List Nat) :
    Wrote medium data offset (pwriteAll medium data offset replies) := by
  induction replies generalizing medium data offset with
  | nil =>
      unfold pwriteAll
      split
      case isTrue empty => exact empty ▸ wrote_nil medium offset _
      case isFalse => exact wrote_stopped medium data offset
  | cons reply rest ih =>
      unfold pwriteAll
      dsimp only
      split
      case isTrue empty => exact empty ▸ wrote_nil medium offset _
      case isFalse =>
        split
        · exact wrote_stopped medium data offset
        · exact Wrote.cons (Nat.min_le_right _ _) (ih _ _ _)

theorem pwritevAll_wrote (medium : Medium) (views : List (List UInt8)) (pos : Nat)
    (replies : List Nat) : Wrote medium views.flatten pos (pwritevAll medium views pos replies) := by
  induction replies generalizing medium views pos with
  | nil =>
      unfold pwritevAll
      split
      case isTrue empty => exact empty ▸ wrote_nil medium pos _
      case isFalse => exact wrote_stopped medium _ pos
  | cons reply rest ih =>
      unfold pwritevAll
      dsimp only
      split
      case isTrue empty => exact empty ▸ wrote_nil medium pos _
      case isFalse =>
        split
        · exact wrote_stopped medium _ pos
        · refine Wrote.cons (Nat.min_le_right reply views.flatten.length) ?_
          have behind := ih (medium.pwrite (views.flatten.take (min reply views.flatten.length)) pos)
            (drainIov views (min reply views.flatten.length)) (pos + min reply views.flatten.length)
          rw [drainIov_flatten] at behind
          exact behind

/-- The three passes of a slot write stay inside the slot, and leave header and payload behind. -/
theorem writeSlot_wrote (medium : Medium) (offset : Nat) (views : List (List UInt8))
    {header : Option Header} (fits : ∀ sealed, header = some sealed → sealed.Fits)
    (replies : List Nat) :
    Medium.Frame offset (offset + slabHeaderBytes + views.flatten.length) medium
        (writeSlot medium offset views header replies).medium ∧
      ((writeSlot medium offset views header replies).rest.isSome → ∃ sealed, header = some sealed ∧
        (writeSlot medium offset views header replies).medium.Holds sealed.pack offset ∧
        (writeSlot medium offset views header replies).medium.Holds views.flatten
          (offset + slabHeaderBytes)) := by
  have blank := pwriteAll_wrote medium (List.replicate slabHeaderBytes 0) offset replies
  unfold writeSlot
  generalize pwriteAll medium (List.replicate slabHeaderBytes 0) offset replies = blanked at blank
  have first := blank.frame
  rw [List.length_replicate] at first
  have first := first.mono (le_refl offset)
    (show offset + slabHeaderBytes ≤ offset + slabHeaderBytes + views.flatten.length by omega)
  obtain ⟨blankMedium, blankRest⟩ := blanked
  cases blankRest with
  | none => exact ⟨first, fun done => by cases done⟩
  | some replies =>
      dsimp only [Progress.next]
      have payload := pwritevAll_wrote blankMedium views (offset + slabHeaderBytes) replies
      generalize pwritevAll blankMedium views (offset + slabHeaderBytes) replies = filled at payload
      have second := first.trans (payload.frame.mono (by omega) (le_refl _))
      obtain ⟨payloadMedium, payloadRest⟩ := filled
      cases payloadRest with
      | none => exact ⟨second, fun done => by cases done⟩
      | some replies =>
          cases header with
          | none => exact ⟨second, fun done => by cases done⟩
          | some sealed =>
              have size := Header.pack_length (fits sealed rfl)
              have last := pwriteAll_wrote payloadMedium sealed.pack offset replies
              have third := last.frame
              rw [size] at third
              refine ⟨second.trans (third.mono (le_refl _) (by omega)), ?_⟩
              intro done
              exact ⟨sealed, rfl, last.holds done, (payload.holds rfl).frame third (by omega)⟩

variable {groups : Nat} {group : List UInt8 → Option (Fin groups)}

/-- The slot of a call shows the call's block: its sealed header and its payload. -/
structure WriteCall.Shown (call : WriteCall groups) (slotBytes : Nat) (medium : Medium)
    (sealed : Header) : Prop where
  header : call.header = some sealed
  sealing : medium.Holds sealed.pack (call.slot * slotBytes)
  payload : medium.Holds call.payload (call.slot * slotBytes + slabHeaderBytes)

/-- A shown block is what the scan of its slot parses. -/
theorem WriteCall.Shown.parsed {call : WriteCall groups} {slotBytes : Nat} {medium : Medium}
    {sealed : Header} (shown : call.Shown slotBytes medium sealed) :
    parseHeader (medium.pread slabHeaderBytes (call.slot * slotBytes)) = some sealed := by
  obtain ⟨fits, whole, magic, version, -⟩ := sealedHeader_eq_some shown.header
  have size := Header.pack_length fits
  have image := Medium.pread_of_holds shown.sealing
  rw [size] at image
  rw [image]
  unfold parseHeader
  have exact : sealed.pack.take slabHeaderBytes = sealed.pack := List.take_of_length_le (by omega)
  rw [if_neg (by omega), exact, Header.unpack_pack fits]
  dsimp only
  rw [if_neg (by simp [magic, version]), if_pos whole]

/-- A write that returns shows its block, and every block in another slot stays shown. -/
theorem SlabIo.write_shown {io : SlabIo groups} {disk : Disk groups} {key : List UInt8} {slot : Nat}
    {views : List (List UInt8)} {seq : Int} {epoch : Option Int} {replies : List Nat}
    (done : (io.write group disk key slot views seq epoch replies).2 = true) :
    ∃ call sealed, Rank.callOf group io key slot views seq epoch = some call ∧
      call.Shown (io.slotBytes call.group)
        ((io.write group disk key slot views seq epoch replies).1 call.group) sealed := by
  unfold SlabIo.write at done ⊢
  cases grouped : group key with
  | none =>
      rw [grouped] at done
      cases done
  | some g =>
      rw [grouped] at done
      dsimp only at done ⊢
      cases found : io.offset g slot with
      | none =>
          rw [found] at done
          cases done
      | some offset =>
          rw [found] at done
          dsimp only at done ⊢
          obtain ⟨inside, rfl⟩ := SlabIo.offset_eq_some found
          split at done
          case isFalse => cases done
          case isTrue room =>
            rw [if_pos room]
            dsimp only at done ⊢
            have fits : ∀ sealed, sealedHeader g key views.flatten.length seq (epoch.getD io.epoch)
                (List.foldl update 0 views).toNat = some sealed → sealed.Fits :=
              fun sealed packed => (sealedHeader_eq_some packed).1
            obtain ⟨sealed, packed, sealing, payload⟩ :=
              (writeSlot_wrote (disk g) (slot * io.slotBytes g) views fits replies).2 done
            refine ⟨_, sealed, Rank.callOf_eq_some.mpr ⟨g, grouped, inside, room, rfl⟩, ?_⟩
            rw [foldl_update] at packed
            dsimp only
            rw [Function.update_self]
            exact ⟨packed, sealing, payload⟩

/-- A write leaves the blocks in the other slots of its rank shown. -/
theorem SlabIo.write_others {io : SlabIo groups} {disk : Disk groups} {key : List UInt8} {slot : Nat}
    {views : List (List UInt8)} {seq : Int} {epoch : Option Int} {replies : List Nat}
    {call : WriteCall groups} {sealed : Header}
    (shown : call.Shown (io.slotBytes call.group) (disk call.group) sealed)
    (room : slabHeaderBytes + call.payload.length ≤ io.slotBytes call.group)
    (other : group key = some call.group → call.slot ≠ slot) :
    call.Shown (io.slotBytes call.group)
      ((io.write group disk key slot views seq epoch replies).1 call.group) sealed := by
  unfold SlabIo.write
  split
  · exact shown
  case h_2 g grouped =>
    split
    · exact shown
    case h_2 offset found =>
      obtain ⟨inside, rfl⟩ := SlabIo.offset_eq_some found
      dsimp only
      split
      case isFalse => exact shown
      case isTrue enough =>
        dsimp only
        by_cases same : call.group = g
        · subst same
          rw [Function.update_self]
          have fits : ∀ sealed, sealedHeader call.group key views.flatten.length seq
              (epoch.getD io.epoch) (List.foldl update 0 views).toNat = some sealed → sealed.Fits :=
            fun sealed packed => (sealedHeader_eq_some packed).1
          have frame := (writeSlot_wrote (disk call.group) (slot * io.slotBytes call.group) views fits
            replies).1
          have size := Header.pack_length (sealedHeader_eq_some shown.header).1
          have apart : (call.slot + 1) * io.slotBytes call.group ≤ slot * io.slotBytes call.group ∨
              (slot + 1) * io.slotBytes call.group ≤ call.slot * io.slotBytes call.group := by
            rcases Nat.lt_or_gt_of_ne (other grouped) with before | behind
            · exact .inl (Nat.mul_le_mul_right _ before)
            · exact .inr (Nat.mul_le_mul_right _ behind)
          rw [Nat.succ_mul, Nat.succ_mul] at apart
          exact ⟨shown.header, shown.sealing.frame frame (by omega), shown.payload.frame frame (by omega)⟩
        · rw [Function.update_of_ne same]
          exact shown

variable (group) in
/-- A read that returns from a slot showing a block returns that block, under its key and epoch. -/
theorem SlabIo.read_shown {io : SlabIo groups} {disk : Disk groups} {call : WriteCall groups}
    {sealed : Header} {key : List UInt8} {views result : List (List UInt8)} {epoch : Int}
    {replies : List Nat}
    (shown : call.Shown (io.slotBytes call.group) (disk call.group) sealed)
    (grouped : group key = some call.group)
    (returned : io.read group disk key call.slot views (some epoch) replies = some result) :
    call.key = key ∧ call.epoch = epoch ∧ result.flatten = call.payload := by
  obtain ⟨g, header, located, served⟩ := SlabIo.read_eq_some returned
  rw [grouped] at located
  cases located
  have parsed := served.parsed
  rw [shown.parsed] at parsed
  cases parsed
  obtain ⟨-, -, -, -, -, ownKey, ownLength, -, ownEpoch, -⟩ := sealedHeader_eq_some shown.header
  have long : call.payload.length = views.flatten.length := by rw [← ownLength, served.length]
  refine ⟨ownKey.symm.trans served.key, ownEpoch.symm.trans (served.epoch epoch rfl), ?_⟩
  rw [served.payload, ← long]
  exact Medium.pread_of_holds shown.payload

end DgxSpark.Slab
