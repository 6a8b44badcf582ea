import DgxSpark.Nvme.Coverage

/-
This file says when `inspect` accepts what `publish` has written. The payload of a chunk is written in a
loop, its padding in one call, and the offsets of the chunks come from the position of the file.
-/

namespace DgxSpark.Nvme

/-- The aligned bytes of some pieces. -/
def alignedBytes (items : List (Nat × Nat × List UInt8)) : Nat := (items.map fun item => alignNat item.2.2.length).sum

/-- Where the padding of each piece is written if nothing was short before, and how many bytes it has. -/
def paddings (cursor : Nat) : List (Nat × Nat × List UInt8) → List (Nat × Nat)
  | [] => []
  | (_, _, data) :: rest =>
      (cursor + data.length, alignNat data.length - data.length) :: paddings (cursor + alignNat data.length) rest

/-- Each padding write takes all its bytes. -/
def PaddingComplete (writes : Writes) (cursor : Nat) (items : List (Nat × Nat × List UInt8)) : Prop :=
  ∀ place ∈ paddings cursor items, writes place.1 place.2 = some place.2

variable (sha256 : List UInt8 → String)

/-- The chunks of the pieces at the running aligned cursor. -/
def chunksAt (cursor : Nat) : List (Nat × Nat × List UInt8) → List Chunk
  | [] => []
  | (storage, start, data) :: rest =>
      ⟨storage, start, data.length, cursor, sha256 data⟩ :: chunksAt (cursor + alignNat data.length) rest

variable {sha256}

theorem chunksAt_append (cursor : Nat) (first second : List (Nat × Nat × List UInt8)) :
    chunksAt sha256 cursor (first ++ second) =
      chunksAt sha256 cursor first ++ chunksAt sha256 (cursor + alignedBytes first) second := by
  induction first generalizing cursor with
  | nil => simp [chunksAt, alignedBytes]
  | cons item rest ih =>
      obtain ⟨storage, start, data⟩ := item
      simp [chunksAt, alignedBytes, ih, Nat.add_assoc]

theorem alignedBytes_append (first second : List (Nat × Nat × List UInt8)) :
    alignedBytes (first ++ second) = alignedBytes first + alignedBytes second := by
  simp [alignedBytes]

section Writing

variable {writes : Writes}

/-- The loop writes every byte of the payload. -/
theorem writeAll_ok {file view written : List UInt8} (done : writeAll writes file view = .ok written) :
    written = file ++ view := by
  induction file, view using writeAll.induct writes with
  | case1 file =>
      rw [writeAll] at done
      simpa using done.symm
  | case2 file view nonempty failed =>
      rw [writeAll] at done
      simp [nonempty, failed] at done
  | case3 file view nonempty stuck =>
      rw [writeAll] at done
      simp [nonempty, stuck] at done
  | case4 file view nonempty taken took ih =>
      rw [writeAll] at done
      simp only [nonempty, took, if_false] at done
      rw [ih done, List.append_assoc, List.take_append_drop]

/-- One call may take the whole payload. -/
theorem writeAll_once {file view : List UInt8} (nonempty : view ≠ [])
    (took : writes file.length view.length = some view.length) : writeAll writes file view = .ok (file ++ view) := by
  obtain ⟨count, same⟩ := Nat.exists_eq_add_of_le' (List.length_pos_iff.mpr nonempty)
  rw [writeAll, if_neg nonempty, took, same]
  show writeAll writes (file ++ view.take (count + 1)) (view.drop (count + 1)) = _
  rw [← same, List.take_length, List.drop_length, writeAll, if_pos rfl]

theorem writeOnce_ok {file data written : List UInt8} (done : writeOnce writes file data = .ok written) :
    ∃ taken, writes file.length data.length = some taken ∧ written = file ++ data.take taken := by
  unfold writeOnce at done
  cases took : writes file.length data.length with
  | none => simp [took] at done
  | some taken =>
      simp only [took, Except.ok.injEq] at done
      exact ⟨taken, rfl, done.symm⟩

/-- One piece: its chunk stands at the position of the file, which moves by the payload and the padding taken. -/
theorem publishChunk_ok {state next : List UInt8 × List Chunk} {storage start : Nat} {data : List UInt8}
    (done : publishChunk writes sha256 state (storage, start, data) = .ok next) :
    ∃ taken, writes (state.1.length + data.length) (alignNat data.length - data.length) = some taken ∧
      next = (state.1 ++ data ++ (List.replicate (alignNat data.length - data.length) 0).take taken,
        state.2 ++ [⟨storage, start, data.length, state.1.length, sha256 data⟩]) := by
  simp only [publishChunk, bind, Except.bind, pure, Except.pure] at done
  cases payload : writeAll writes state.1 data with
  | error error => simp [payload] at done
  | ok file =>
      have whole := writeAll_ok payload
      subst whole
      simp only [payload] at done
      cases padded : writeOnce writes (state.1 ++ data)
          (List.replicate (alignNat data.length - data.length) 0) with
      | error error => simp [padded] at done
      | ok file =>
          simp only [padded, Except.ok.injEq] at done
          obtain ⟨taken, took, rfl⟩ := writeOnce_ok padded
          rw [List.length_append, List.length_replicate] at took
          exact ⟨taken, took, done.symm⟩

/-- A piece whose payload is taken at once, and whatever of its padding. -/
theorem publishChunk_once {state : List UInt8 × List Chunk} {storage start taken : Nat} {data : List UInt8}
    (nonempty : data ≠ []) (took : writes state.1.length data.length = some data.length)
    (padded : writes (state.1.length + data.length) (alignNat data.length - data.length) = some taken) :
    publishChunk writes sha256 state (storage, start, data) =
      .ok (state.1 ++ data ++ (List.replicate (alignNat data.length - data.length) 0).take taken,
        state.2 ++ [⟨storage, start, data.length, state.1.length, sha256 data⟩]) := by
  have once : writeOnce writes (state.1 ++ data) (List.replicate (alignNat data.length - data.length) 0) =
      .ok (state.1 ++ data ++ (List.replicate (alignNat data.length - data.length) 0).take taken) := by
    rw [writeOnce, List.length_append, List.length_replicate, padded]
  simp only [publishChunk, bind, Except.bind, pure, Except.pure, writeAll_once nonempty took, once]

/-- The file never runs past the aligned cursor, and it is there only if every padding was whole. -/
theorem publish_fold {items : List (Nat × Nat × List UInt8)} {state last : List UInt8 × List Chunk}
    (legal : writes.Legal) (done : items.foldlM (publishChunk writes sha256) state = .ok last) :
    alignedOf last.2 = alignedOf state.2 + alignedBytes items ∧
      last.1.length ≤ state.1.length + alignedBytes items ∧
        (last.1.length = state.1.length + alignedBytes items → PaddingComplete writes state.1.length items) ∧
          (PaddingComplete writes state.1.length items →
            last.1.length = state.1.length + alignedBytes items ∧
              last.2 = state.2 ++ chunksAt sha256 state.1.length items) := by
  induction items generalizing state with
  | nil =>
      cases done
      simp [alignedBytes, PaddingComplete, paddings, chunksAt]
  | cons item rest ih =>
      obtain ⟨storage, start, data⟩ := item
      rw [List.foldlM_cons] at done
      cases first : publishChunk writes sha256 state (storage, start, data) with
      | error error =>
          rw [first] at done
          cases done
      | ok next =>
          rw [first] at done
          obtain ⟨taken, took, rfl⟩ := publishChunk_ok first
          obtain ⟨aligned, within, whole, complete⟩ := ih done
          have bound := (legal _ _ _ took).1
          have above := le_alignNat data.length
          have moved : alignedBytes ((storage, start, data) :: rest) = alignNat data.length + alignedBytes rest := by
            simp [alignedBytes]
          have grown : (state.1 ++ data ++
              (List.replicate (alignNat data.length - data.length) (0 : UInt8)).take taken).length =
                state.1.length + data.length + taken := by
            simp [bound, Nat.add_assoc]
          simp only [grown] at within whole complete
          simp only [moved]
          refine ⟨?_, by omega, ?_, ?_⟩
          · rw [aligned, alignedOf_append]
            simp [alignedOf, align_natCast, add_assoc]
          · intro reached
            have full : taken = alignNat data.length - data.length := by omega
            have here : state.1.length + data.length + taken = state.1.length + alignNat data.length := by omega
            have later := whole (by omega)
            rw [here] at later
            intro place member
            cases List.mem_cons.mp member with
            | inl same =>
                subst same
                rw [← full] at took ⊢
                exact took
            | inr more => exact later place more
          · intro padded
            have full := padded _ (List.mem_cons_self ..)
            have same : taken = alignNat data.length - data.length := Option.some.inj (took.symm.trans full)
            have here : state.1.length + data.length + taken = state.1.length + alignNat data.length := by omega
            rw [here] at complete
            obtain ⟨length, chunks⟩ := complete fun place member => padded place (List.mem_cons_of_mem _ member)
            refine ⟨by omega, ?_⟩
            rw [chunks]
            simp [chunksAt]

end Writing

section Checking

variable {chunkBytes : Nat}

/-- The pieces of one storage from the piece at a place on. -/
def piecesFrom (raw : List UInt8) (storage chunkBytes place count : Nat) : List (Nat × Nat × List UInt8) :=
  (List.range' place count).map fun k => (storage, k * chunkBytes, (raw.drop (k * chunkBytes)).take chunkBytes)

/-- The coverage loop goes through the pieces of one storage. -/
theorem checkChunk_storage {raw : List UInt8} {storage place count cursor : Nat} {cursors : List Int}
    (positive : 0 < chunkBytes) (some_pieces : place + count = (raw.length + chunkBytes - 1) / chunkBytes)
    (inside : storage < cursors.length)
    (here : cursors[storage]? = some ((min (place * chunkBytes) raw.length : Nat) : Int)) :
    (chunksAt sha256 cursor (piecesFrom raw storage chunkBytes place count)).foldlM (checkChunk chunkBytes)
        (cursors, (cursor : Int)) =
      .ok (cursors.set storage raw.length,
        ((cursor + alignedBytes (piecesFrom raw storage chunkBytes place count) : Nat) : Int)) := by
  induction count generalizing place cursor cursors with
  | zero =>
      have ended : raw.length ≤ place * chunkBytes := by
        have := Nat.lt_mul_div_succ (raw.length + chunkBytes - 1) positive
        rw [← some_pieces, Nat.add_zero, Nat.mul_comm, Nat.succ_mul] at this
        omega
      rw [Nat.min_eq_right ended] at here
      have same : cursors.set storage (raw.length : Int) = cursors := by
        apply List.ext_getElem?
        intro index
        by_cases this : storage = index
        · subst this
          rw [List.getElem?_set_self inside, here]
        · rw [List.getElem?_set_ne this]
      simp [piecesFrom, chunksAt, alignedBytes, same, pure, Except.pure]
  | succ count ih =>
      have started : place * chunkBytes < raw.length := by
        have := Nat.div_mul_le_self (raw.length + chunkBytes - 1) chunkBytes
        rw [← some_pieces] at this
        have more : place * chunkBytes + chunkBytes ≤ (place + (count + 1)) * chunkBytes := by
          rw [← Nat.succ_mul]
          apply Nat.mul_le_mul_right
          omega
        omega
      have length : ((raw.drop (place * chunkBytes)).take chunkBytes).length =
          min chunkBytes (raw.length - place * chunkBytes) := by simp
      have split : piecesFrom raw storage chunkBytes place (count + 1) =
          (storage, place * chunkBytes, (raw.drop (place * chunkBytes)).take chunkBytes) ::
            piecesFrom raw storage chunkBytes (place + 1) count := by
        simp [piecesFrom, List.range'_succ]
      rw [Nat.min_eq_left started.le] at here
      have accepted : checkChunk chunkBytes (cursors, (cursor : Int))
          ⟨storage, (place * chunkBytes : Nat),
            ((raw.drop (place * chunkBytes)).take chunkBytes).length, cursor,
            sha256 ((raw.drop (place * chunkBytes)).take chunkBytes)⟩ =
          .ok (cursors.set storage ((min ((place + 1) * chunkBytes) raw.length : Nat) : Int),
            ((cursor + alignNat ((raw.drop (place * chunkBytes)).take chunkBytes).length : Nat) : Int)) := by
        have stored : ((storage : Nat) : Int).toNat = storage := Int.toNat_natCast storage
        have next : ((place * chunkBytes : Nat) : Int) +
            (((raw.drop (place * chunkBytes)).take chunkBytes).length : Int) =
              ((min ((place + 1) * chunkBytes) raw.length : Nat) : Int) := by
          rw [length, Nat.succ_mul]
          omega
        have sized : 0 < (((raw.drop (place * chunkBytes)).take chunkBytes).length : Int) ∧
            (((raw.drop (place * chunkBytes)).take chunkBytes).length : Int) ≤ chunkBytes := by
          rw [length]
          omega
        simp only [checkChunk, stored, here, next, sized, align_natCast]
        simp
      rw [split, chunksAt, List.foldlM_cons, accepted]
      show (chunksAt sha256 _ (piecesFrom raw storage chunkBytes (place + 1) count)).foldlM _ _ = _
      rw [ih (by omega) (by simpa using inside) (by simp [inside])]
      simp [alignedBytes, Nat.add_assoc]

variable (sha256) in
/-- The coverage loop goes through all storages: those before are full, those to come are at zero. -/
theorem checkChunk_storages (storages : List (List UInt8)) (done : List Int) (cursor : Nat)
    (positive : 0 < chunkBytes) :
    (chunksAt sha256 cursor ((storages.zipIdx done.length).flatMap fun (raw, storage) =>
        (starts raw.length chunkBytes).map fun start =>
          (storage, start, (raw.drop start).take chunkBytes))).foldlM
        (checkChunk chunkBytes) (done ++ storages.map fun _ => 0, (cursor : Int)) =
      .ok (done ++ storages.map fun raw => (raw.length : Int),
        ((cursor + alignedBytes ((storages.zipIdx done.length).flatMap fun (raw, storage) =>
          (starts raw.length chunkBytes).map fun start =>
            (storage, start, (raw.drop start).take chunkBytes)) : Nat) : Int)) := by
  induction storages generalizing done cursor with
  | nil => simp [chunksAt, alignedBytes, pure, Except.pure]
  | cons raw rest ih =>
      have here : ((starts raw.length chunkBytes).map fun start =>
          (done.length, start, (raw.drop start).take chunkBytes)) =
            piecesFrom raw done.length chunkBytes 0 ((raw.length + chunkBytes - 1) / chunkBytes) := by
        simp [starts, piecesFrom, List.range_eq_range']
      rw [List.zipIdx_cons, List.flatMap_cons]
      simp only [here]
      rw [chunksAt_append, List.foldlM_append, alignedBytes_append]
      rw [checkChunk_storage positive (by omega) (by simp) (by simp)]
      have full : (done ++ (raw :: rest).map fun _ => (0 : Int)).set done.length raw.length =
          (done ++ [(raw.length : Int)]) ++ rest.map fun _ => 0 := by
        simp
      have later := ih (done ++ [(raw.length : Int)]) (cursor + alignedBytes
        (piecesFrom raw done.length chunkBytes 0 ((raw.length + chunkBytes - 1) / chunkBytes)))
      rw [List.length_append, List.length_singleton] at later
      show (chunksAt sha256 _ _).foldlM _ (_, _) = _
      rw [full, later]
      simp [Nat.add_assoc]

variable (sha256) in
/-- All pieces of the storages pass the coverage loop. -/
theorem checkChunk_pieces (storages : List (List UInt8)) (positive : 0 < chunkBytes) :
    (chunksAt sha256 0 (pieces storages chunkBytes)).foldlM (checkChunk chunkBytes) (storages.map fun _ => 0, 0) =
      .ok (storages.map fun raw => (raw.length : Int), ((alignedBytes (pieces storages chunkBytes) : Nat) : Int)) := by
  have all := checkChunk_storages sha256 storages [] 0 positive
  simpa [pieces] using all

end Checking

section Agreement

variable {Contract Schema State : Type} [DecidableEq Contract] [DecidableEq Schema] {writes : Writes}
variable {digest : Manifest Contract Schema State → String} {present : Bool} {inventory : Inventory Schema}
variable {expectedSchema : Option Schema} {contract : Contract} {chunkBytes : Int} {loaderState : State}
variable {artifact : Artifact Contract Schema State}

omit [DecidableEq Contract] in
/-- What a normal return of `publish` has written. -/
theorem publish_ok
    (published : publish writes sha256 digest present inventory expectedSchema contract chunkBytes loaderState =
      .ok artifact) :
    0 < chunkBytes ∧ ∃ chunks,
      (pieces inventory.storages chunkBytes.toNat).foldlM (publishChunk writes sha256) ([], []) =
        .ok (artifact.weights, chunks) ∧
      artifact.manifest = ⟨artifactVersion, artifactPhase, contract, inventory.schema, chunkBytes, chunks,
        inventory.storages.map fun raw => raw.length, loaderState, artifact.weights.length⟩ ∧
      artifact.artifactId = digest artifact.manifest := by
  unfold publish at published
  simp only [bind, Except.bind, pure, Except.pure, throw, throwThe, MonadExceptOf.throw] at published
  by_cases there : present = true
  · simp [there] at published
  by_cases changed : ∃ expected, expectedSchema = some expected ∧ inventory.schema ≠ expected
  · simp [there, changed] at published
  by_cases sized : chunkBytes ≤ 0 ∨ chunkBytes % 4096 ≠ 0
  · simp only [there, changed, sized, if_false, if_true] at published
    simp at published
  simp only [there, changed, sized, if_false] at published
  cases wrote : (pieces inventory.storages chunkBytes.toNat).foldlM (publishChunk writes sha256) ([], []) with
  | error error => simp [wrote] at published
  | ok state =>
      simp only [wrote, Bool.false_eq_true, if_false, Except.ok.injEq] at published
      subst published
      simp only [not_or, not_le] at sized
      exact ⟨sized.1, state.2, rfl, rfl, rfl⟩

/-- `inspect` accepts what `publish` returned exactly when no padding write was short. -/
theorem publish_inspected_iff (legal : writes.Legal)
    (published : publish writes sha256 digest present inventory expectedSchema contract chunkBytes loaderState =
      .ok artifact) :
    (∃ m, inspect digest artifact contract = .ok m ∧ m.Covered artifact.weights.length) ↔
      PaddingComplete writes 0 (pieces inventory.storages chunkBytes.toNat) := by
  obtain ⟨positive, chunks, wrote, manifest, named⟩ := publish_ok published
  obtain ⟨aligned, within, whole, complete⟩ := publish_fold legal wrote
  constructor
  · rintro ⟨m, accepted, covered⟩
    obtain ⟨rfl, -, -⟩ := inspect_ok accepted
    have ended := covered.fileBytes
    rw [covered.size, manifest] at ended
    simp only [alignedOf, List.map_nil, List.sum_nil, zero_add] at aligned ended
    apply whole
    simp only [List.length_nil]
    omega
  · intro padded
    obtain ⟨length, laid⟩ := complete padded
    have total : ((chunkBytes.toNat : Nat) : Int) = chunkBytes := Int.toNat_of_nonneg positive.le
    have someBytes : 0 < chunkBytes.toNat := by omega
    have passed := checkChunk_pieces sha256 inventory.storages someBytes
    simp only [List.length_nil, Nat.zero_add, List.nil_append] at length laid
    rw [total] at passed
    have accepted : inspect digest artifact contract = .ok artifact.manifest := by
      have sized : (artifact.weights.length : Int) = alignedBytes (pieces inventory.storages chunkBytes.toNat) := by
        rw [length]
      have zeros : ((inventory.storages.map fun raw => (raw.length : Int)).map fun _ => (0 : Int)) =
          inventory.storages.map fun _ => 0 := List.map_map
      unfold inspect
      simp only [bind, Except.bind, pure, Except.pure, throw, throwThe, MonadExceptOf.throw, named]
      rw [manifest]
      simp only [zeros, laid, passed]
      simp [sized]
    exact ⟨artifact.manifest, accepted, (inspect_ok accepted).2.2⟩

/-- A write that takes at most 4094 bytes. -/
def shortWrites : Writes := fun _ length => some (min length 4094)

/-- The artifact of one storage of one byte whose padding took so many bytes. -/
def oneByte (taken : Nat) : Artifact Unit Unit Unit where
  manifest := ⟨artifactVersion, artifactPhase, (), (), 4096, [⟨0, 0, 1, 0, ""⟩], [1], (), (1 + taken : Nat)⟩
  artifactId := ""
  weights := [7] ++ (List.replicate 4095 0).take taken

theorem oneByte_length {taken : Nat} (bound : taken ≤ 4095) : (oneByte taken).weights.length = 1 + taken := by
  show ([7] ++ (List.replicate 4095 (0 : UInt8)).take taken).length = 1 + taken
  rw [List.length_append, List.length_take, List.length_replicate, Nat.min_eq_left bound]
  rfl

theorem publish_oneByte {writes : Writes} {taken : Nat} (took : writes 0 1 = some 1)
    (padded : writes 1 4095 = some taken) (bound : taken ≤ 4095) :
    publish writes (fun _ => "") (fun _ => "") false ⟨(), [[7]]⟩ none () 4096 () = .ok (oneByte taken) := by
  have items : pieces [[(7 : UInt8)]] (4096 : Int).toNat = [(0, 0, [7])] := by decide
  have chunk : publishChunk writes (fun _ => "") ([], []) (0, 0, [7]) =
      .ok ((oneByte taken).weights, [⟨0, 0, 1, 0, ""⟩]) := publishChunk_once (by simp) took padded
  unfold publish
  rw [items, List.foldlM_cons, chunk]
  show Except.ok (⟨⟨artifactVersion, artifactPhase, (), (), 4096, [⟨0, 0, 1, 0, ""⟩], [1], (),
    ((oneByte taken).weights.length : Int)⟩, "", (oneByte taken).weights⟩ : Artifact Unit Unit Unit) = _
  rw [oneByte_length bound]
  rfl

/-- The padding of one byte took 4094 bytes of 4095. -/
theorem publish_not_inspected :
    ¬∀ (writes : Writes) (artifact : Artifact Unit Unit Unit), writes.Legal →
      publish writes (fun _ => "") (fun _ => "") false ⟨(), [[7]]⟩ none () 4096 () = .ok artifact →
        ∃ m, inspect (fun _ => "") artifact () = .ok m ∧ m.Covered artifact.weights.length := by
  intro every
  have legal : shortWrites.Legal := by
    intro position length taken took
    simp only [shortWrites, Option.some.injEq] at took
    omega
  have short : shortWrites 1 4095 = some 4094 := by decide
  obtain ⟨m, accepted, -⟩ := every _ _ legal (publish_oneByte rfl short (by decide))
  have size : ((oneByte 4094).weights.length : Int) = 4095 := by
    rw [oneByte_length (by decide)]
    rfl
  have refused : inspect (fun _ => "") (oneByte 4094) () = .error (.value "incomplete artifact coverage") := by
    unfold inspect
    rw [size]
    rfl
  rw [refused] at accepted
  cases accepted

/-- One byte with writes that take everything. -/
theorem publish_inspected_iff_whole :
    (∃ m, inspect (fun _ => "") (oneByte 4095) () = .ok m ∧ m.Covered (oneByte 4095).weights.length) ↔
      PaddingComplete (fun _ length => some length) 0 (pieces [[7]] 4096) := by
  have legal : Writes.Legal fun _ length => some length := by
    intro position length taken took
    cases took
    exact ⟨le_rfl, id⟩
  exact publish_inspected_iff legal (publish_oneByte rfl rfl le_rfl)

end Agreement

end DgxSpark.Nvme
