import DgxSpark.Offload.Lookup
import Mathlib.Tactic

/-
This file shows what the two scans of `_lookup` find, and that the blocks of a group are backed up to the tokens that its
turn leaves.
-/

namespace DgxSpark.Offload
open DgxSpark.Library

variable {Key : Type} {manager : Key → Option Bool}

section Scan

variable (manager) in
/-- The manager has the block at an index. -/
def Hit (keys : List Key) (index : Nat) : Prop := ∃ key, keys[index]? = some key ∧ manager key = some true

variable (manager) in
/-- All blocks of a range have hits. -/
def Hits (keys : List Key) (start stop : Nat) : Prop := ∀ index, start ≤ index → index < stop → Hit manager keys index

instance (keys : List Key) (index : Nat) : Decidable (Hit manager keys index) :=
  decidable_of_iff (keys[index]?.bind manager = some true) (by simp [Hit, Option.bind_eq_some_iff])

instance (keys : List Key) (start stop : Nat) : Decidable (Hits manager keys start stop) :=
  decidable_of_iff (∀ index < stop, start ≤ index → Hit manager keys index)
    ⟨fun hits index low high => hits index high low, fun hits index high low => hits index low high⟩

theorem hits_empty {keys : List Key} {start stop : Nat} (empty : stop ≤ start) : Hits manager keys start stop := by
  intro index low high
  omega

theorem Hits.mono {keys : List Key} {start stop later earlier : Nat} (hits : Hits manager keys start stop)
    (low : start ≤ later) (high : earlier ≤ stop) : Hits manager keys later earlier :=
  fun index lower upper => hits index (low.trans lower) (upper.trans_le high)

/-- A slice shows the blocks behind its start. -/
theorem hit_slice {keys : List Key} {start stop index : Nat} :
    Hit manager (slice keys start stop) index ↔ start + index < stop ∧ Hit manager keys (start + index) := by
  simp only [Hit, slice, List.getElem?_drop]
  by_cases inside : start + index < stop
  · simp [inside]
  · have absent : (keys.take stop)[start + index]? = none := List.getElem?_eq_none (by rw [List.length_take]; omega)
    rw [absent]
    simp [inside]

theorem maximalPrefixLoop_deferred (keys : List Key) (hitCount : Nat) :
    maximalPrefixLoop manager keys hitCount true = none := by
  induction keys generalizing hitCount with
  | nil => rfl
  | cons key rest ih =>
      unfold maximalPrefixLoop
      split
      · exact ih _
      · exact ih _
      · rfl

/-- The hits that the loop adds are the longest run from the first key on. -/
theorem maximalPrefixLoop_some {keys : List Key} {hitCount found : Nat}
    (answer : maximalPrefixLoop manager keys hitCount false = some found) :
    ∃ more, found = hitCount + more ∧ more ≤ keys.length ∧ Hits manager keys 0 more ∧
      (more < keys.length → ¬Hit manager keys more) := by
  induction keys generalizing hitCount with
  | nil =>
      simp only [maximalPrefixLoop, Bool.false_eq_true, if_false, Option.some.injEq] at answer
      exact ⟨0, answer.symm, Nat.le_refl _, hits_empty (Nat.le_refl _), fun more => absurd more (Nat.lt_irrefl _)⟩
  | cons key rest ih =>
      unfold maximalPrefixLoop at answer
      split at answer
      case h_1 =>
        rw [maximalPrefixLoop_deferred] at answer
        cases answer
      case h_2 here =>
        obtain ⟨more, same, within, hits, stops⟩ := ih answer
        refine ⟨more + 1, by omega, by simpa using within, ?_, ?_⟩
        · intro index _ below
          cases index with
          | zero => exact ⟨key, rfl, here⟩
          | succ index => exact hits index (Nat.zero_le _) (by omega)
        · intro inside
          exact stops (by simpa using inside)
      case h_3 here =>
        simp only [Bool.false_eq_true, if_false, Option.some.injEq] at answer
        refine ⟨0, answer.symm, Nat.zero_le _, hits_empty (Nat.le_refl _), ?_⟩
        rintro _ ⟨other, found, hit⟩
        cases found
        rw [here] at hit
        cases hit

theorem maximalPrefixLookup_some {keys : List Key} {found : Nat} (answer : maximalPrefixLookup manager keys = some found) :
    found ≤ keys.length ∧ Hits manager keys 0 found ∧ (found < keys.length → ¬Hit manager keys found) := by
  obtain ⟨more, same, within, hits, stops⟩ := maximalPrefixLoop_some answer
  rw [Nat.zero_add] at same
  exact same ▸ ⟨within, hits, stops⟩

theorem slidingWindowLoop_deferred (window : Nat) (keys : List Key) (consecutiveHits : Nat) :
    slidingWindowLoop manager window keys consecutiveHits true = none := by
  induction keys generalizing consecutiveHits with
  | nil => rfl
  | cons key rest ih =>
      unfold slidingWindowLoop
      split
      · exact ih _
      · exact ih _
      · split
        · rfl
        · exact ih _

variable (manager) in
/-- The last blocks before an index have hits, as many as the window takes. -/
def Window (keys : List Key) (window stop : Nat) : Prop := Hits manager keys (stop - window) stop

/-- The scan goes down from the end. Behind it there is no window, and the hits that it counts are those before it. -/
theorem slidingWindowLoop_some {keys : List Key} {window : Nat} (front back : List Key) (parts : keys = front ++ back)
    {consecutiveHits found : Nat} (within : consecutiveHits ≤ back.length) (narrow : consecutiveHits < window)
    (run : Hits manager keys front.length (front.length + consecutiveHits))
    (behind : ∀ stop, front.length + consecutiveHits < stop → stop ≤ keys.length → ¬Window manager keys window stop)
    (answer : slidingWindowLoop manager window front.reverse consecutiveHits false = some found) :
    found ≤ keys.length ∧ Window manager keys window found ∧
      ∀ stop, found < stop → stop ≤ keys.length → ¬Window manager keys window stop := by
  induction front using List.reverseRecOn generalizing back consecutiveHits with
  | nil =>
      simp only [List.reverse_nil, slidingWindowLoop, Bool.false_eq_true, if_false, Option.some.injEq] at answer
      subst answer
      simp only [List.length_nil, Nat.zero_add] at run behind
      rw [List.nil_append] at parts
      exact ⟨parts ▸ within, run.mono (Nat.zero_le _) (Nat.le_refl _), behind⟩
  | append_singleton front key ih =>
      have place : keys[front.length]? = some key := by simp [parts]
      have length : keys.length = front.length + 1 + back.length := by
        rw [parts, List.length_append, List.length_append, List.length_singleton]
      rw [List.append_assoc, List.singleton_append] at parts
      rw [List.length_append, List.length_singleton] at run behind
      rw [List.reverse_concat] at answer
      -- A miss is in every window that ends within the run behind it.
      have missed : manager key ≠ some true → ∀ stop, front.length + 0 < stop → stop ≤ keys.length →
          ¬Window manager keys window stop := by
        intro miss stop low high holds
        by_cases far : front.length + 1 + consecutiveHits < stop
        · exact behind stop far high holds
        · obtain ⟨other, found, hit⟩ := holds front.length (by omega) (by omega)
          rw [place] at found
          cases found
          exact miss hit
      unfold slidingWindowLoop at answer
      split at answer
      case h_1 =>
        rw [slidingWindowLoop_deferred] at answer
        cases answer
      case h_2 here =>
        exact ih (key :: back) parts (Nat.zero_le _) (by omega) (hits_empty (Nat.le_refl _))
          (missed (by rw [here]; decide)) answer
      case h_3 here =>
        have longer : Hits manager keys front.length (front.length + (consecutiveHits + 1)) := by
          intro index low high
          rcases Nat.eq_or_lt_of_le low with rfl | above
          · exact ⟨key, place, here⟩
          · exact run index above (by omega)
        split at answer
        case isTrue full =>
          simp only [Bool.false_eq_true, if_false, Option.some.injEq, List.length_reverse] at answer
          subst answer
          refine ⟨by omega, longer.mono (by omega) (by omega), ?_⟩
          intro stop low high
          exact behind stop (by omega) high
        case isFalse part =>
          refine ih (key :: back) parts (by simpa using within) (by omega) longer ?_ answer
          intro stop low high
          exact behind stop (by omega) high

/-- The answer is the last place that a whole window ends at, or the longest run from the first key on. -/
theorem slidingWindowLookup_some {keys : List Key} {window found : Nat} (positive : 0 < window)
    (answer : slidingWindowLookup manager keys window = some found) :
    found ≤ keys.length ∧ Window manager keys window found ∧
      ∀ stop, found < stop → stop ≤ keys.length → ¬Window manager keys window stop := by
  refine slidingWindowLoop_some keys [] (List.append_nil keys).symm (Nat.zero_le _) positive
    (hits_empty (Nat.le_refl _)) ?_ answer
  intro stop low high
  omega

end Scan

theorem le_cdiv_mul (tokens : Nat) {size : Nat} (positive : 0 < size) : tokens ≤ cdiv tokens size * size := by
  have quotient := Nat.div_add_mod (tokens + size - 1) size
  have rest := Nat.mod_lt (tokens + size - 1) positive
  rw [Nat.mul_comm] at quotient
  rw [cdiv]
  omega

/-- So many tokens are in so many blocks. -/
theorem cdiv_le {tokens size : Nat} (positive : 0 < size) {blocks : Nat} : cdiv tokens size ≤ blocks ↔ tokens ≤ size * blocks := by
  constructor
  · intro few
    have whole := le_cdiv_mul tokens positive
    have scaled := Nat.mul_le_mul_right size few
    rw [Nat.mul_comm]
    omega
  · intro fits
    rw [cdiv]
    have less : (tokens + size - 1) / size < blocks + 1 := by
      rw [Nat.div_lt_iff_lt_mul positive]
      rw [Nat.add_mul, Nat.one_mul, Nat.mul_comm blocks size]
      omega
    omega

theorem cdiv_mono {fewer more size : Nat} (positive : 0 < size) (grows : fewer ≤ more) : cdiv fewer size ≤ cdiv more size :=
  (cdiv_le positive).mpr (grows.trans ((cdiv_le positive).mp (Nat.le_refl _)))

theorem cdiv_add (tokens : Nat) {size : Nat} (positive : 0 < size) : cdiv (tokens + size) size = cdiv tokens size + 1 := by
  have same : tokens + size + size - 1 = tokens + size - 1 + size := by omega
  rw [cdiv, cdiv, same, Nat.add_div_right _ positive]

namespace LookupGroup

variable (manager) (numComputedTokens : Nat)

/-- The first block behind the computed tokens, and the end of the blocks of so many tokens. -/
def firstBlock (group : LookupGroup Key) : Nat := numComputedTokens / group.config.offloadedBlockSize

def endBlock (group : LookupGroup Key) (numTokens : Nat) : Nat := cdiv numTokens group.config.offloadedBlockSize

/-- The first block that a hit of so many tokens needs: a window needs the last ones only. -/
def needBlock (group : LookupGroup Key) (numTokens : Nat) : Nat :=
  match group.config.slidingWindowSizeInBlocks with
  | none => group.firstBlock numComputedTokens
  | some window => max (group.firstBlock numComputedTokens) (group.endBlock numTokens - window)

/-- The manager has the blocks that a hit of so many tokens needs. -/
structure Backed (group : LookupGroup Key) (numTokens : Nat) : Prop where
  known : numTokens ≤ group.offloadKeys.length * group.config.offloadedBlockSize
  hits : Hits manager group.offloadKeys (group.needBlock numComputedTokens numTokens) (group.endBlock numTokens)

variable {manager numComputedTokens} {group : LookupGroup Key}

instance (numTokens : Nat) : Decidable (group.Backed manager numComputedTokens numTokens) :=
  decidable_of_iff (numTokens ≤ group.offloadKeys.length * group.config.offloadedBlockSize ∧
      Hits manager group.offloadKeys (group.needBlock numComputedTokens numTokens) (group.endBlock numTokens))
    ⟨fun both => ⟨both.1, both.2⟩, fun backed => ⟨backed.known, backed.hits⟩⟩

/-- A prefix that has hits has them for fewer tokens. -/
theorem Backed.fewer {numTokens fewer : Nat} (backed : group.Backed manager numComputedTokens numTokens)
    (full : group.slides = false) (less : fewer ≤ numTokens) : group.Backed manager numComputedTokens fewer := by
  have none : group.config.slidingWindowSizeInBlocks = none := by simpa [slides] using full
  refine ⟨less.trans backed.known, ?_⟩
  have hits := backed.hits
  simp only [needBlock, none] at hits ⊢
  exact hits.mono (Nat.le_refl _) (cdiv_mono group.config.sized less)

theorem endBlock_mul (blocks : Nat) : group.endBlock (group.config.offloadedBlockSize * blocks) = blocks := by
  have positive := group.config.sized
  refine Nat.le_antisymm ((cdiv_le positive).mpr (Nat.le_refl _)) ?_
  have whole := le_cdiv_mul (group.config.offloadedBlockSize * blocks) positive
  rw [Nat.mul_comm (cdiv _ _)] at whole
  exact Nat.le_of_mul_le_mul_left whole positive

/-- The answer of a window, in blocks of the group: where it ends, and what it reaches to at most. -/
theorem window_answer {window stop found : Nat} (positive : 0 < window) (answered : 0 < found)
    (answer : slidingWindowLookup manager (slice group.offloadKeys (group.firstBlock numComputedTokens) stop) window =
      some found) :
    group.firstBlock numComputedTokens + found ≤ stop ∧
      Hits manager group.offloadKeys (group.firstBlock numComputedTokens + (found - window))
        (group.firstBlock numComputedTokens + found) := by
  obtain ⟨within, hits, _⟩ := slidingWindowLookup_some positive answer
  rw [slice, List.length_drop, List.length_take] at within
  refine ⟨by omega, ?_⟩
  intro index low high
  have there := (hit_slice.mp (hits (index - group.firstBlock numComputedTokens) (by omega) (by omega))).2
  have place : group.firstBlock numComputedTokens + (index - group.firstBlock numComputedTokens) = index := by omega
  rwa [place] at there

/-- What a scan finds backs the tokens that the turn of the group leaves. An eagle group drops its last block. -/
theorem numHitBlocks_backed {most found : Nat} {isEagleUnverified : Bool}
    (windowed : ∀ window ∈ group.config.slidingWindowSizeInBlocks, 0 < window)
    (known : most ≤ group.offloadKeys.length * group.config.offloadedBlockSize) (answered : 0 < found)
    (answer : numHitBlocks manager numComputedTokens group isEagleUnverified most = some found) :
    group.Backed manager numComputedTokens
      (min most (group.config.offloadedBlockSize *
        (group.firstBlock numComputedTokens + if isEagleUnverified then found - 1 else found))) := by
  have positive := group.config.sized
  generalize blocks : group.firstBlock numComputedTokens + (if isEagleUnverified then found - 1 else found) = most'
  generalize tokens : min most (group.config.offloadedBlockSize * most') = left
  have few : group.endBlock left ≤ most' := (cdiv_le positive).mpr (tokens ▸ Nat.min_le_right _ _)
  refine ⟨tokens ▸ (Nat.min_le_left _ _).trans known, ?_⟩
  unfold numHitBlocks at answer
  simp only at answer
  split at answer
  case h_1 full =>
    obtain ⟨_, hits, _⟩ := maximalPrefixLookup_some answer
    simp only [needBlock, full]
    intro index low high
    have below : index < group.firstBlock numComputedTokens + found := by
      have bound : most' ≤ group.firstBlock numComputedTokens + found := by
        rw [← blocks]
        split <;> omega
      omega
    have there := (hit_slice.mp (hits (index - group.firstBlock numComputedTokens) (Nat.zero_le _) (by omega))).2
    have place : numComputedTokens / group.config.offloadedBlockSize + (index - group.firstBlock numComputedTokens) =
        index := Nat.add_sub_of_le low
    rwa [place] at there
  case h_2 window slides =>
    have wide : 0 < window := windowed window slides
    have longer : 0 < (if isEagleUnverified = true then window + 1 else window) := by split <;> omega
    obtain ⟨inside, hits⟩ := window_answer longer answered answer
    simp only [needBlock, slides]
    -- The scan was not asked for more than one block behind the tokens.
    have reach : most' ≤ cdiv most group.config.offloadedBlockSize := by
      have stop := inside.trans (Nat.min_le_left _ _)
      rw [← blocks]
      cases isEagleUnverified with
      | false => simpa using stop
      | true =>
          have further := cdiv_mono positive (Nat.min_le_left (most + group.config.offloadedBlockSize)
            (group.offloadKeys.length * group.config.offloadedBlockSize))
          rw [cdiv_add most positive] at further
          simp only [if_true] at stop ⊢
          omega
    have ends : group.endBlock left = most' := by
      rcases Nat.le_total most (group.config.offloadedBlockSize * most') with small | large
      · rw [Nat.min_eq_left small] at tokens
        exact Nat.le_antisymm few (tokens ▸ reach)
      · rw [Nat.min_eq_right large] at tokens
        rw [← tokens, endBlock_mul]
    rw [ends]
    refine hits.mono ?_ ?_
    · rw [← blocks]
      cases isEagleUnverified <;> simp only [if_true, Bool.false_eq_true, if_false] <;> omega
    · rw [← blocks]
      split <;> omega

/-- Fewer tokens that are backed are within what a scan finds. -/
theorem numHitBlocks_greatest {most found numTokens : Nat}
    (windowed : ∀ window ∈ group.config.slidingWindowSizeInBlocks, 0 < window)
    (answer : numHitBlocks manager numComputedTokens group false most = some found) (small : numTokens ≤ most)
    (backed : group.Backed manager numComputedTokens numTokens) :
    numTokens ≤ group.config.offloadedBlockSize * (group.firstBlock numComputedTokens + found) := by
  have positive := group.config.sized
  by_contra beyond
  have further : group.firstBlock numComputedTokens + found < group.endBlock numTokens :=
    Nat.lt_of_not_le fun few => beyond ((cdiv_le positive).mp few)
  have stop : group.endBlock numTokens ≤ min (cdiv most group.config.offloadedBlockSize) group.offloadKeys.length := by
    refine Nat.le_min.mpr ⟨cdiv_mono positive small, ?_⟩
    refine (cdiv_le positive).mpr ?_
    rw [Nat.mul_comm]
    exact backed.known
  have hits := backed.hits
  have inside := Nat.le_min.mp stop
  unfold numHitBlocks at answer
  simp only at answer
  split at answer
  case h_1 full =>
    obtain ⟨_, _, stops⟩ := maximalPrefixLookup_some answer
    simp only [needBlock, full] at hits
    refine stops ?_ (hit_slice.mpr ⟨?_, hits _ (Nat.le_add_right _ _) further⟩)
    · rw [slice, List.length_drop, List.length_take]
      simp only [firstBlock] at further
      omega
    · exact further.trans_le stop
  case h_2 window slides =>
    obtain ⟨_, _, stops⟩ := slidingWindowLookup_some (windowed window slides) answer
    simp only [needBlock, slides] at hits
    refine stops (group.endBlock numTokens - group.firstBlock numComputedTokens) (by omega) ?_ ?_
    · rw [slice, List.length_drop, List.length_take]
      simp only [firstBlock] at further ⊢
      simp only [Bool.false_eq_true, if_false]
      omega
    · intro index low high
      refine hit_slice.mpr ⟨?_, ?_⟩
      · simp only [firstBlock] at further high ⊢
        simp only [Bool.false_eq_true, if_false]
        omega
      · refine hits (group.firstBlock numComputedTokens + index) ?_ ?_
        · omega
        · omega

end LookupGroup

end DgxSpark.Offload
