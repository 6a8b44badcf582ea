import DgxSpark.Nvme.Artifact

/-
This file says what `inspect` has checked of a manifest: the chunks cover each storage exactly, at the
running aligned offsets of the file.
-/

namespace DgxSpark.Nvme

/-- The bytes that the chunks put into a storage. -/
def coveredOf (chunks : List Chunk) (storage : Int) : Int :=
  ((chunks.filter (·.storage = storage)).map Chunk.length).sum

/-- The aligned bytes that the chunks take in the file. -/
def alignedOf (chunks : List Chunk) : Int := (chunks.map fun chunk => align chunk.length).sum

theorem coveredOf_append (first second : List Chunk) (storage : Int) :
    coveredOf (first ++ second) storage = coveredOf first storage + coveredOf second storage := by
  simp [coveredOf]

theorem alignedOf_append (first second : List Chunk) :
    alignedOf (first ++ second) = alignedOf first + alignedOf second := by
  simp [alignedOf]

/-- A chunk continues its storage and the file after the chunks before it. -/
structure Chunk.Follows (chunk : Chunk) (chunkBytes : Int) (storages : Nat) (before : List Chunk) : Prop where
  storage : 0 ≤ chunk.storage ∧ chunk.storage.toNat < storages
  start : chunk.start = coveredOf before chunk.storage
  length : 0 < chunk.length ∧ chunk.length ≤ chunkBytes
  offset : chunk.offset = alignedOf before

variable {Contract Schema State : Type}

/-- The chunks of a manifest cover its storages exactly, and the file ends after them. -/
structure Manifest.Covered (m : Manifest Contract Schema State) (size : Nat) : Prop where
  follows : ∀ before chunk after, m.chunks = before ++ chunk :: after →
    chunk.Follows m.chunkBytes m.storageBytes.length before
  total : ∀ (place : Nat) bytes, m.storageBytes[place]? = some bytes → coveredOf m.chunks place = bytes
  fileBytes : m.fileBytes = alignedOf m.chunks
  size : m.fileBytes = size

/-- The cursors after the chunks before. -/
structure Cursors (state : List Int × Int) (storages : Nat) (before : List Chunk) : Prop where
  count : state.1.length = storages
  covered : ∀ place, place < storages → state.1[place]? = some (coveredOf before place)
  aligned : state.2 = alignedOf before

theorem checkChunk_ok {chunkBytes : Int} {state next : List Int × Int} {chunk : Chunk}
    (checked : checkChunk chunkBytes state chunk = .ok next) :
    0 ≤ chunk.storage ∧ state.1[chunk.storage.toNat]? = some chunk.start ∧
      (0 < chunk.length ∧ chunk.length ≤ chunkBytes) ∧ chunk.offset = state.2 ∧
        next = (state.1.set chunk.storage.toNat (chunk.start + chunk.length), state.2 + align chunk.length) := by
  unfold checkChunk at checked
  split at checked
  · cases checked
  case isFalse placed =>
    split at checked
    · cases checked
    case isFalse sized =>
      cases checked
      simp only [not_or, not_lt, ne_eq, not_not] at placed sized
      exact ⟨placed.1, placed.2, sized.1, sized.2, rfl⟩

theorem Cursors.check {chunkBytes : Int} {state next : List Int × Int} {storages : Nat} {before : List Chunk}
    {chunk : Chunk} (cursors : Cursors state storages before)
    (checked : checkChunk chunkBytes state chunk = .ok next) :
    chunk.Follows chunkBytes storages before ∧ Cursors next storages (before ++ [chunk]) := by
  obtain ⟨nonneg, here, length, offset, rfl⟩ := checkChunk_ok checked
  have inside : chunk.storage.toNat < storages := by
    rw [← cursors.count]
    exact (List.getElem?_eq_some_iff.mp here).1
  have named : ((chunk.storage.toNat : Nat) : Int) = chunk.storage := Int.toNat_of_nonneg nonneg
  have start : chunk.start = coveredOf before chunk.storage := by
    have same := cursors.covered _ inside
    rw [here, named] at same
    exact Option.some.inj same
  refine ⟨⟨⟨nonneg, inside⟩, start, length, offset.trans cursors.aligned⟩, ?_⟩
  constructor
  · rw [List.length_set]
    exact cursors.count
  · intro place bound
    rw [coveredOf_append]
    by_cases same : place = chunk.storage.toNat
    · subst same
      rw [List.getElem?_set_self (by rw [cursors.count]; exact bound), start, named]
      simp [coveredOf]
    · rw [List.getElem?_set_ne (Ne.symm same), cursors.covered place bound]
      have other : chunk.storage ≠ place := by omega
      simp [coveredOf, other]
  · rw [alignedOf_append, ← cursors.aligned]
    simp [alignedOf]

/-- What the coverage loop has checked when it ends. -/
theorem Cursors.loop {chunkBytes : Int} {storages : Nat} (chunks : List Chunk) {state last : List Int × Int}
    {before : List Chunk} (cursors : Cursors state storages before)
    (checked : chunks.foldlM (checkChunk chunkBytes) state = .ok last) :
    Cursors last storages (before ++ chunks) ∧ ∀ early chunk late, chunks = early ++ chunk :: late →
      chunk.Follows chunkBytes storages (before ++ early) := by
  induction chunks generalizing state before with
  | nil =>
      cases checked
      rw [List.append_nil]
      exact ⟨cursors, fun early _ _ same => absurd same (by simp)⟩
  | cons head rest ih =>
      rw [List.foldlM_cons] at checked
      cases first : checkChunk chunkBytes state head with
      | error error =>
          rw [first] at checked
          cases checked
      | ok next =>
          rw [first] at checked
          obtain ⟨here, after⟩ := cursors.check first
          obtain ⟨ended, later⟩ := ih after checked
          rw [List.append_assoc, List.singleton_append] at ended
          refine ⟨ended, fun early chunk late same => ?_⟩
          cases early with
          | nil =>
              cases same
              rw [List.append_nil]
              exact here
          | cons one more =>
              cases same
              have there := later more chunk late rfl
              rwa [List.append_assoc, List.singleton_append] at there

theorem Cursors.zero (bytes : List Int) : Cursors (bytes.map fun _ => 0, 0) bytes.length [] where
  count := List.length_map _
  covered place bound := by simp [coveredOf, bound]
  aligned := rfl

variable [DecidableEq Contract] {digest : Manifest Contract Schema State → String}

/-- What `inspect` accepts is covered. -/
theorem inspect_ok {artifact : Artifact Contract Schema State} {contract : Contract}
    {m : Manifest Contract Schema State} (accepted : inspect digest artifact contract = .ok m) :
    m = artifact.manifest ∧ m.contract = contract ∧ m.Covered artifact.weights.length := by
  unfold inspect at accepted
  simp only [bind, Except.bind, pure, Except.pure, throw, throwThe, MonadExceptOf.throw] at accepted
  by_cases named : digest artifact.manifest ≠ artifact.artifactId
  · simp [named] at accepted
  by_cases format : artifact.manifest.version ≠ artifactVersion ∨ artifact.manifest.phase ≠ artifactPhase
  · simp [named, format] at accepted
  by_cases other : artifact.manifest.contract ≠ contract
  · simp [named, format, other] at accepted
  by_cases sized : (artifact.weights.length : Int) ≠ artifact.manifest.fileBytes
  · simp [named, format, other, sized] at accepted
  simp only [named, format, other, sized, if_false] at accepted
  have from0 := Cursors.zero artifact.manifest.storageBytes
  cases looped : artifact.manifest.chunks.foldlM (checkChunk artifact.manifest.chunkBytes)
      (artifact.manifest.storageBytes.map fun _ => 0, 0) with
  | error error =>
      rw [looped] at accepted
      simp at accepted
  | ok last =>
      rw [looped] at accepted
      obtain ⟨ended, follows⟩ := from0.loop _ looped
      by_cases short : last.1 ≠ artifact.manifest.storageBytes ∨ last.2 ≠ artifact.manifest.fileBytes
      · simp [short] at accepted
      simp only [short, if_false, Except.ok.injEq] at accepted
      simp only [not_or, ne_eq, not_not] at short other sized
      subst accepted
      refine ⟨rfl, other, follows, ?_, short.2.symm.trans ended.aligned, sized.symm⟩
      intro place bytes here
      have covered := ended.covered place (List.getElem?_eq_some_iff.mp here).1
      rw [short.1, here] at covered
      exact (Option.some.inj covered).symm

end DgxSpark.Nvme
