import DgxSpark.Library.Fallible
import DgxSpark.Offload.LookupHits

/-
This file shows that the rounds of `_lookup` come to an end, and that every group is backed at the tokens that they
agree on.
-/

namespace DgxSpark.Offload
open DgxSpark.Library

variable {Key : Type} {manager : Key → Option Bool} {groups : List (LookupGroup Key)} {numTokens numComputedTokens : Nat}
  {search next : Search Key} {group : LookupGroup Key}

/-- What a turn does to the rounds: it leaves them, or with fewer tokens than before asks for another round. -/
inductive Flags (groups : List (LookupGroup Key)) (search next : Search Key) (deferred : Bool) : Prop where
  | stays (same : search.numHitTokens ≤ next.numHitTokens)
      (defer : next.deferLookup = (search.deferLookup || deferred)) (again : next.lookupGroups = search.lookupGroups) :
      Flags groups search next deferred
  | again (less : next.numHitTokens < search.numHitTokens) (defers : (search.deferLookup || deferred) = true)
      (defer : next.deferLookup = false) (again : next.lookupGroups = LookupGroup.lookupOrder groups) :
      Flags groups search next deferred
  | slides (less : next.numHitTokens < search.numHitTokens) (clear : (search.deferLookup || deferred) = false)
      (defer : next.deferLookup = false) (fresh : search.lookupGroups = [])
      (again : next.lookupGroups = LookupGroup.slidingWindowGroups groups) (looked : search.lookedUpSlidingWindow = true) :
      Flags groups search next deferred
  | goes (less : next.numHitTokens < search.numHitTokens) (clear : (search.deferLookup || deferred) = false)
      (defer : next.deferLookup = false) (again : next.lookupGroups = search.lookupGroups)
      (apart : search.lookedUpSlidingWindow = false ∨ search.lookupGroups ≠ []) : Flags groups search next deferred

/-- What a turn of a group does. -/
structure Turned (manager : Key → Option Bool) (groups : List (LookupGroup Key)) (numComputedTokens : Nat)
    (search : Search Key) (group : LookupGroup Key) (next : Search Key) : Prop where
  most : next.maxHitSizeTokens ≤ search.maxHitSizeTokens
  room : numComputedTokens + group.config.offloadedBlockSize ≤ next.maxHitSizeTokens
  num : next.numHitTokens + numComputedTokens = next.maxHitSizeTokens
  looked : next.lookedUpSlidingWindow = (search.lookedUpSlidingWindow || group.slides)
  flags : ∃ deferred, (deferred = false → group.Backed manager numComputedTokens next.maxHitSizeTokens) ∧
    Flags groups search next deferred

/-- Fewer tokens ask for all groups when a lookup was deferred, and else for the windows when one was looked up. -/
theorem shrink_cases (search : Search Key) (group : LookupGroup Key) :
    (search.shrink groups group).maxHitSizeTokens = search.maxHitSizeTokens ∧
      (search.shrink groups group).lookedUpSlidingWindow = search.lookedUpSlidingWindow ∧
        (search.shrink groups group).deferLookup = false ∧
          ((search.deferLookup = true ∧ (search.shrink groups group).lookupGroups = LookupGroup.lookupOrder groups) ∨
            (search.deferLookup = false ∧ search.lookedUpSlidingWindow = true ∧ search.lookupGroups = [] ∧
              (search.shrink groups group).lookupGroups = LookupGroup.slidingWindowGroups groups) ∨
            (search.deferLookup = false ∧ (search.lookedUpSlidingWindow = false ∨ search.lookupGroups ≠ []) ∧
              (search.shrink groups group).lookupGroups = search.lookupGroups)) := by
  obtain ⟨most, num, defers, verified, again, looked⟩ := search
  have cleared : ∃ other, (if group.config.isEagleGroup = true then
      (⟨most, num, defers, verified, again, looked⟩ : Search Key)
    else ⟨most, num, defers, [], again, looked⟩) = ⟨most, num, defers, other, again, looked⟩ := by
    split
    · exact ⟨verified, rfl⟩
    · exact ⟨[], rfl⟩
  obtain ⟨other, cleared⟩ := cleared
  unfold Search.shrink
  rw [cleared]
  cases defers with
  | true => exact ⟨rfl, rfl, rfl, .inl ⟨rfl, rfl⟩⟩
  | false =>
      simp only [Bool.false_eq_true, if_false]
      by_cases both : looked = true ∧ again.isEmpty = true
      · rw [if_pos both]
        exact ⟨rfl, rfl, rfl, .inr (.inl ⟨trivial, both.1, List.isEmpty_iff.mp both.2, rfl⟩)⟩
      · rw [if_neg both]
        refine ⟨rfl, rfl, rfl, .inr (.inr ⟨trivial, ?_, rfl⟩)⟩
        cases looked with
        | false => exact .inl rfl
        | true => exact .inr fun none => both ⟨rfl, List.isEmpty_iff.mpr none⟩

/-- The end of the body keeps the tokens, and sets the flags. -/
theorem settle_ok (settled : search.settle groups numComputedTokens group = .ok next) :
    next.maxHitSizeTokens = search.maxHitSizeTokens ∧
      numComputedTokens + group.config.offloadedBlockSize ≤ next.maxHitSizeTokens ∧
        next.numHitTokens + numComputedTokens = next.maxHitSizeTokens ∧
          next.lookedUpSlidingWindow = (search.lookedUpSlidingWindow || group.slides) ∧ Flags groups search next false := by
  unfold Search.settle at settled
  split at settled
  case isTrue => cases settled
  case isFalse room =>
    have room := Nat.le_of_not_lt room
    have rest : search.maxHitSizeTokens - numComputedTokens + numComputedTokens = search.maxHitSizeTokens := by omega
    by_cases less : search.maxHitSizeTokens - numComputedTokens < search.numHitTokens
    · simp only [if_pos less] at settled
      obtain ⟨most, looked, defer, again⟩ := @shrink_cases _ groups search group
      cases settled
      refine ⟨most, most ▸ room, most ▸ rest, congrArg (· || group.slides) looked, ?_⟩
      rcases again with ⟨defers, again⟩ | ⟨clear, some, fresh, again⟩ | ⟨clear, apart, again⟩
      · exact .again less (by simp [defers]) defer again
      · exact .slides less (by simp [clear]) defer fresh again some
      · exact .goes less (by simp [clear]) defer again apart
    · simp only [if_neg less] at settled
      cases settled
      exact ⟨rfl, room, rest, rfl, .stays (Nat.le_of_not_lt less) (Bool.or_false _).symm rfl⟩

theorem settle_noHit {leave : Leave} (settled : search.settle groups numComputedTokens group = .error leave) :
    leave = .noHit ∧ search.maxHitSizeTokens < numComputedTokens + group.config.offloadedBlockSize := by
  unfold Search.settle at settled
  split at settled
  case isTrue little =>
    cases settled
    exact ⟨rfl, little⟩
  case isFalse => cases settled

/-- A turn whose lookup was deferred, or backs the group. -/
theorem turn_ok (windowed : ∀ window ∈ group.config.slidingWindowSizeInBlocks, 0 < window)
    (taken : search.turn manager groups numTokens numComputedTokens group = .ok next) :
    Turned manager groups numComputedTokens search group next := by
  unfold Search.turn at taken
  simp only at taken
  split at taken
  case isTrue => cases taken
  case isFalse =>
    split at taken
    case isTrue => cases taken
    case isFalse =>
      split at taken
      case h_1 answer =>
        obtain ⟨most, room, num, looked, flags⟩ := settle_ok taken
        refine ⟨most ▸ Nat.min_le_left _ _, room, num, looked, true, fun clear => absurd clear (by decide), ?_⟩
        cases flags with
        | stays same defer again => exact .stays same (by simpa using defer) again
        | again less _ defer again => exact .again less (Bool.or_true _) defer again
        | slides _ clear => exact absurd clear (by simp)
        | goes _ clear => exact absurd clear (by simp)
      case h_2 => cases taken
      case h_3 hits answer =>
        obtain ⟨most, room, num, looked, flags⟩ := settle_ok taken
        have backed := LookupGroup.numHitBlocks_backed windowed (Nat.min_le_right _ _) (Nat.succ_pos hits) answer
        refine ⟨most ▸ (Nat.min_le_left _ _).trans (Nat.min_le_left _ _), room, num, looked, false, fun _ => ?_, ?_⟩
        · rw [most]
          simpa [LookupGroup.firstBlock] using backed
        · cases flags with
          | stays same defer again => exact .stays same defer again
          | again less defers defer again => exact .again less defers defer again
          | slides less clear defer fresh again looked => exact .slides less clear defer fresh again looked
          | goes less clear defer again apart => exact .goes less clear defer again apart

/-- A hit is kept, or it is below the bound. -/
def Keeps (hit bound : Nat) : Except Leave (Search Key) → Prop
  | .ok search => hit ≤ search.maxHitSizeTokens
  | .error .noHit => hit < bound
  | .error .keysMissing => True

/-- A group that is no eagle group keeps the tokens that back it. -/
theorem turn_greatest (windowed : ∀ window ∈ group.config.slidingWindowSizeInBlocks, 0 < window)
    (target : group.config.isEagleGroup = false) {hit : Nat} (small : hit ≤ search.maxHitSizeTokens)
    (backed : group.Backed manager numComputedTokens hit) :
    Keeps hit (numComputedTokens + group.config.offloadedBlockSize)
      (search.turn manager groups numTokens numComputedTokens group) := by
  have inside : hit ≤ min search.maxHitSizeTokens (group.offloadKeys.length * group.config.offloadedBlockSize) :=
    Nat.le_min.mpr ⟨small, backed.known⟩
  have settles : ∀ search : Search Key, hit ≤ search.maxHitSizeTokens →
      Keeps hit (numComputedTokens + group.config.offloadedBlockSize) (search.settle groups numComputedTokens group) := by
    intro search within
    cases settled : search.settle groups numComputedTokens group with
    | ok next =>
        show hit ≤ next.maxHitSizeTokens
        rw [(settle_ok settled).1]
        exact within
    | error leave =>
        obtain ⟨rfl, little⟩ := settle_noHit settled
        exact within.trans_lt little
  unfold Search.turn
  simp only [target, Bool.false_and]
  split
  case isTrue => trivial
  case isFalse =>
    split
    case isTrue little => exact inside.trans_lt little
    case isFalse =>
      cases answer : numHitBlocks manager numComputedTokens group false
          (min search.maxHitSizeTokens (group.offloadKeys.length * group.config.offloadedBlockSize)) with
      | none => exact settles _ inside
      | some found =>
          have within := LookupGroup.numHitBlocks_greatest windowed answer inside backed
          cases found with
          | zero =>
              have whole : group.config.offloadedBlockSize * group.firstBlock numComputedTokens ≤ numComputedTokens :=
                Nat.mul_div_le _ _
              have positive := group.config.sized
              show hit < _
              rw [Nat.add_zero] at within
              omega
          | succ hits => exact settles _ (Nat.le_min.mpr ⟨inside, within⟩)

section Rounds

variable (manager groups numComputedTokens)

/-- All groups with full attention are backed. This is kept with fewer tokens. -/
def Fulls (numTokens : Nat) : Prop :=
  ∀ group ∈ groups, group.slides = false → group.Backed manager numComputedTokens numTokens

/-- What holds once a round has gone through some of the groups with full attention. -/
structure Leading (done : List (LookupGroup Key)) (search : Search Key) : Prop where
  looked : search.lookedUpSlidingWindow = false
  due : search.lookupGroups = LookupGroup.lookupOrder groups ∨
    (search.lookupGroups = [] ∧ (search.deferLookup = false →
      ∀ group ∈ done, group.Backed manager numComputedTokens search.maxHitSizeTokens))

/-- The groups that are due behind some of the windows: all, or the windows, or none if all of them are backed. -/
inductive Due (done : List (LookupGroup Key)) (search : Search Key) : Prop where
  | all (again : search.lookupGroups = LookupGroup.lookupOrder groups) : Due done search
  | windows (again : search.lookupGroups = LookupGroup.slidingWindowGroups groups)
      (fulls : search.deferLookup = false → Fulls manager groups numComputedTokens search.maxHitSizeTokens) :
      Due done search
  | none (again : search.lookupGroups = [])
      (fulls : search.deferLookup = false → Fulls manager groups numComputedTokens search.maxHitSizeTokens)
      (backed : search.deferLookup = false →
        ∀ group ∈ done, group.Backed manager numComputedTokens search.maxHitSizeTokens) : Due done search

/-- What holds once a round has gone through some of the windows. -/
structure Trailing (done : List (LookupGroup Key)) (search : Search Key) : Prop where
  looked : search.lookedUpSlidingWindow = false → done = []
  num : done = [] ∨ search.numHitTokens + numComputedTokens = search.maxHitSizeTokens
  due : Due manager groups numComputedTokens done search

variable {manager groups numComputedTokens} {done : List (LookupGroup Key)}

theorem Fulls.fewer {fewer more : Nat} (fulls : Fulls manager groups numComputedTokens more) (less : fewer ≤ more) :
    Fulls manager groups numComputedTokens fewer :=
  fun group member full => (fulls group member full).fewer full less

theorem backed_concat {numTokens : Nat} (before : ∀ group ∈ done, group.Backed manager numComputedTokens numTokens)
    (last : group.Backed manager numComputedTokens numTokens) :
    ∀ other ∈ done ++ [group], other.Backed manager numComputedTokens numTokens := by
  intro other member
  rcases List.mem_append.mp member with member | member
  · exact before other member
  · rw [List.mem_singleton.mp member]
    exact last

/-- A group with full attention leaves the others backed, as it takes tokens away only. -/
theorem Leading.turned (leading : Leading manager groups numComputedTokens done search)
    (fulls : ∀ other ∈ done, other.slides = false) (full : group.slides = false)
    (turned : Turned manager groups numComputedTokens search group next) :
    Leading manager groups numComputedTokens (done ++ [group]) next := by
  have unlooked : next.lookedUpSlidingWindow = false := by rw [turned.looked, leading.looked, full]; rfl
  obtain ⟨deferred, backed, flags⟩ := turned.flags
  have kept : search.deferLookup = false → deferred = false →
      (∀ other ∈ done, other.Backed manager numComputedTokens search.maxHitSizeTokens) →
        ∀ other ∈ done ++ [group], other.Backed manager numComputedTokens next.maxHitSizeTokens :=
    fun _ clear before =>
      backed_concat (fun other member => (before other member).fewer (fulls other member) turned.most) (backed clear)
  have carried : next.lookupGroups = search.lookupGroups → next.deferLookup = (search.deferLookup || deferred) →
      Leading manager groups numComputedTokens (done ++ [group]) next := by
    intro again defer
    refine ⟨unlooked, ?_⟩
    rcases leading.due with all | ⟨none, before⟩
    · exact .inl (again.trans all)
    · refine .inr ⟨again.trans none, fun clear => ?_⟩
      obtain ⟨first, second⟩ := Bool.or_eq_false_iff.mp (defer.symm.trans clear)
      exact kept first second (before first)
  cases flags with
  | stays _ defer again => exact carried again defer
  | again _ _ _ again => exact ⟨unlooked, .inl again⟩
  | slides _ _ _ _ _ looked => exact absurd (leading.looked.symm.trans looked) (by decide)
  | goes _ clear defer again => exact carried again (defer.trans clear.symm)

/-- A window that takes tokens away has the windows before it looked up again. -/
theorem Trailing.turned (trailing : Trailing manager groups numComputedTokens done search) (slides : group.slides = true)
    (turned : Turned manager groups numComputedTokens search group next) :
    Trailing manager groups numComputedTokens (done ++ [group]) next := by
  have looked : next.lookedUpSlidingWindow = true := by rw [turned.looked, slides, Bool.or_true]
  refine ⟨fun unlooked => absurd (looked.symm.trans unlooked) (by decide), .inr turned.num, ?_⟩
  obtain ⟨deferred, backed, flags⟩ := turned.flags
  -- The groups with full attention stay backed when no lookup is deferred.
  have fewer : next.deferLookup = (search.deferLookup || deferred) →
      (search.deferLookup = false → Fulls manager groups numComputedTokens search.maxHitSizeTokens) →
        next.deferLookup = false → Fulls manager groups numComputedTokens next.maxHitSizeTokens :=
    fun defer fulls clear => (fulls (Bool.or_eq_false_iff.mp (defer.symm.trans clear)).1).fewer turned.most
  cases flags with
  | again _ _ _ again => exact .all again
  | stays same defer again =>
      cases trailing.due with
      | all all => exact .all (again.trans all)
      | windows windows fulls => exact .windows (again.trans windows) (fewer defer fulls)
      | none none fulls before =>
          refine .none (again.trans none) (fewer defer fulls) fun clear => ?_
          obtain ⟨first, second⟩ := Bool.or_eq_false_iff.mp (defer.symm.trans clear)
          refine backed_concat ?_ (backed second)
          rcases trailing.num with rfl | num
          · intro other member
            cases member
          · -- As many tokens as before are the same tokens.
            have equal : next.maxHitSizeTokens = search.maxHitSizeTokens := by
              have most := turned.most
              have rest := turned.num
              omega
            rw [equal]
            exact before first
  | slides _ clear defer fresh again looked =>
      cases trailing.due with
      | all all =>
          have none : LookupGroup.slidingWindowGroups groups = [] :=
            (List.append_eq_nil_iff.mp (all.symm.trans fresh)).2
          exact .all (again.trans (none.trans (fresh.symm.trans all)))
      | windows _ fulls => exact .windows again (fewer (defer.trans clear.symm) fulls)
      | none _ fulls => exact .windows again (fewer (defer.trans clear.symm) fulls)
  | goes _ clear defer again apart =>
      have same := defer.trans clear.symm
      cases trailing.due with
      | all all => exact .all (again.trans all)
      | windows windows fulls => exact .windows (again.trans windows) (fewer same fulls)
      | none none fulls =>
          refine .none (again.trans none) (fewer same fulls) fun _ => ?_
          -- It is the first window of the round.
          have first : done = [] := trailing.looked (apart.resolve_right (fun some => some none))
          subst first
          exact backed_concat (fun other member => by cases member) (backed (Bool.or_eq_false_iff.mp clear).2)

variable (numComputedTokens) in
/-- The tokens since the round began: another round has fewer of them. -/
structure Fewer (top : Nat) (search : Search Key) : Prop where
  most : search.maxHitSizeTokens ≤ top
  num : search.numHitTokens = 0 ∨ search.numHitTokens + numComputedTokens = search.maxHitSizeTokens
  less : search.lookupGroups ≠ [] → search.maxHitSizeTokens < top

theorem Fewer.turned {top : Nat} (fewer : Fewer numComputedTokens top search)
    (turned : Turned manager groups numComputedTokens search group next) : Fewer numComputedTokens top next := by
  have most := fewer.most
  have step := turned.most
  have rest := turned.num
  refine ⟨step.trans most, .inr rest, fun some => ?_⟩
  obtain ⟨_, _, flags⟩ := turned.flags
  have shrinks : next.numHitTokens < search.numHitTokens → next.maxHitSizeTokens < top := by
    intro less
    have num := fewer.num
    omega
  cases flags with
  | stays _ _ again => exact turned.most.trans_lt (fewer.less (again ▸ some))
  | again less => exact shrinks less
  | slides less => exact shrinks less
  | goes less => exact shrinks less

theorem mem_slidingWindowGroups {groups : List (LookupGroup Key)} {group : LookupGroup Key} :
    group ∈ LookupGroup.slidingWindowGroups groups ↔ group ∈ groups ∧ group.slides = true := by
  rw [LookupGroup.slidingWindowGroups, List.mem_mergeSort, List.mem_filter]

theorem mem_lookupOrder {groups : List (LookupGroup Key)} {group : LookupGroup Key} :
    group ∈ LookupGroup.lookupOrder groups ↔ group ∈ groups := by
  rw [LookupGroup.lookupOrder, List.mem_append, mem_slidingWindowGroups, List.mem_filter]
  cases group.slides <;> simp

/-- The windows that are left of a round. -/
theorem windows_due (windowed : ∀ group ∈ groups, ∀ window ∈ group.config.slidingWindowSizeInBlocks, 0 < window)
    (trailing : Trailing manager groups numComputedTokens [] search)
    (ended : (LookupGroup.slidingWindowGroups groups).foldlM (Search.turn manager groups numTokens numComputedTokens)
      search = .ok next) : Due manager groups numComputedTokens groups next := by
  have trailed : Trailing manager groups numComputedTokens (LookupGroup.slidingWindowGroups groups) next := by
    refine foldlM_carries (Trailing manager groups numComputedTokens) ?_ trailing ended
    intro before group after state next split trailing taken
    have member : group ∈ LookupGroup.slidingWindowGroups groups := by simp [split]
    have inside := mem_slidingWindowGroups.mp member
    exact trailing.turned inside.2 (turn_ok (windowed group inside.1) taken)
  cases trailed.due with
  | all again => exact .all again
  | windows again fulls => exact .windows again fulls
  | none again fulls backed =>
      refine .none again fulls fun clear group member => ?_
      cases slides : group.slides with
      | false => exact fulls clear group member slides
      | true => exact backed clear group (mem_slidingWindowGroups.mpr ⟨member, slides⟩)

/-- A round leaves due what is still to be looked up. -/
theorem round_due (windowed : ∀ group ∈ groups, ∀ window ∈ group.config.slidingWindowSizeInBlocks, 0 < window)
    (due : Due manager groups numComputedTokens groups search) (some : search.lookupGroups ≠ [])
    (ended : search.round manager groups numTokens numComputedTokens = .ok next) :
    Due manager groups numComputedTokens groups next := by
  unfold Search.round at ended
  cases due with
  | none none => exact absurd none some
  | windows again fulls =>
      rw [again] at ended
      have trailing : Trailing manager groups numComputedTokens []
          { search with lookupGroups := [], lookedUpSlidingWindow := false } := by
        refine ⟨fun _ => rfl, .inl rfl, .none rfl fulls fun _ group member => ?_⟩
        cases member
      exact windows_due windowed trailing ended
  | all again =>
      rw [again, LookupGroup.lookupOrder, List.foldlM_append, Library.bind_ok] at ended
      obtain ⟨middle, first, ended⟩ := ended
      have leading : Leading manager groups numComputedTokens (groups.filter fun group => !group.slides) middle := by
        refine foldlM_carries (Leading manager groups numComputedTokens) ?_ ⟨rfl, .inr ⟨rfl, fun _ group member => ?_⟩⟩ first
        · intro before group after state next split leading taken
          have inside : ∀ other ∈ before ++ [group], other ∈ groups ∧ other.slides = false := by
            intro other member
            have member : other ∈ groups.filter fun group => !group.slides := by
              rw [split, List.append_cons]
              exact List.mem_append_left _ member
            simpa using member
          have last := inside group (by simp)
          exact leading.turned (fun other member => (inside other (List.mem_append_left _ member)).2) last.2
            (turn_ok (windowed group last.1) taken)
        · cases member
      refine windows_due windowed ⟨fun _ => rfl, .inl rfl, ?_⟩ ended
      rcases leading.due with all | ⟨none, backed⟩
      · exact .all all
      · refine .none none (fun clear group member full => backed clear group ?_) fun _ group member => ?_
        · rw [List.mem_filter, full]
          exact ⟨member, rfl⟩
        · cases member

/-- All groups are backed when none is due, and no lookup is deferred. -/
theorem Due.backed (due : Due manager groups numComputedTokens groups search) (none : search.lookupGroups = [])
    (clear : search.deferLookup = false) :
    ∀ group ∈ groups, group.Backed manager numComputedTokens search.maxHitSizeTokens := by
  intro group member
  cases due with
  | none _ _ backed => exact backed clear group member
  | all again =>
      rw [← mem_lookupOrder, ← again, none] at member
      cases member
  | windows again fulls =>
      refine fulls clear group member ?_
      by_contra slides
      have slides : group.slides = true := by simpa using slides
      have window := mem_slidingWindowGroups.mpr ⟨member, slides⟩
      rw [← again, none] at window
      cases window

/-- All groups that are due belong to the request. -/
theorem Due.inside (due : Due manager groups numComputedTokens done search) {group : LookupGroup Key}
    (member : group ∈ search.lookupGroups) : group ∈ groups := by
  cases due with
  | all again => exact mem_lookupOrder.mp (again ▸ member)
  | windows again => exact (mem_slidingWindowGroups.mp (again ▸ member)).1
  | none again =>
      rw [again] at member
      cases member

theorem round_fewer (windowed : ∀ group ∈ groups, ∀ window ∈ group.config.slidingWindowSizeInBlocks, 0 < window)
    (due : Due manager groups numComputedTokens groups search)
    (num : search.numHitTokens = 0 ∨ search.numHitTokens + numComputedTokens = search.maxHitSizeTokens)
    (ended : search.round manager groups numTokens numComputedTokens = .ok next) :
    Fewer numComputedTokens search.maxHitSizeTokens next := by
  have begun : Fewer numComputedTokens search.maxHitSizeTokens
      ({ search with lookupGroups := [], lookedUpSlidingWindow := false } : Search Key) :=
    ⟨Nat.le_refl _, num, fun some => absurd rfl some⟩
  refine foldlM_carries (fun _ => Fewer numComputedTokens search.maxHitSizeTokens) ?_ begun ended
  intro before group after state next split fewer taken
  exact fewer.turned (turn_ok (windowed group (due.inside (by simp [split]))) taken)

/-- A round that has a group leaves the hit behind the computed tokens. -/
theorem round_num (windowed : ∀ group ∈ groups, ∀ window ∈ group.config.slidingWindowSizeInBlocks, 0 < window)
    (due : Due manager groups numComputedTokens groups search) (some : search.lookupGroups ≠ [])
    (ended : search.round manager groups numTokens numComputedTokens = .ok next) :
    next.numHitTokens + numComputedTokens = next.maxHitSizeTokens := by
  have counted : search.lookupGroups = [] ∨ next.numHitTokens + numComputedTokens = next.maxHitSizeTokens := by
    refine foldlM_carries (fun done state => done = [] ∨ state.numHitTokens + numComputedTokens = state.maxHitSizeTokens)
      ?_ (.inl rfl) ended
    intro before group after state next split _ taken
    exact .inr (turn_ok (windowed group (due.inside (by simp [split]))) taken).num
  exact counted.resolve_left some

/-- The rounds come to an end, and no group is due when they do. -/
theorem rounds_settle (windowed : ∀ group ∈ groups, ∀ window ∈ group.config.slidingWindowSizeInBlocks, 0 < window)
    {fuel : Nat} (due : Due manager groups numComputedTokens groups search)
    (num : search.numHitTokens = 0 ∨ search.numHitTokens + numComputedTokens = search.maxHitSizeTokens)
    (enough : 0 < fuel) (lasts : search.lookupGroups ≠ [] → search.maxHitSizeTokens + 2 ≤ fuel) :
    ∃ answer, search.rounds manager groups numTokens numComputedTokens fuel = some answer ∧
      ∀ last, answer = .ok last → Due manager groups numComputedTokens groups last ∧ last.lookupGroups = [] ∧
        last.maxHitSizeTokens ≤ search.maxHitSizeTokens ∧
          (last.numHitTokens = 0 ∨ last.numHitTokens + numComputedTokens = last.maxHitSizeTokens) := by
  induction fuel generalizing search with
  | zero => exact absurd enough (Nat.lt_irrefl _)
  | succ fuel ih =>
      unfold Search.rounds
      split
      case isTrue none =>
        refine ⟨_, rfl, fun last same => ?_⟩
        cases same
        exact ⟨due, List.isEmpty_iff.mp none, Nat.le_refl _, num⟩
      case isFalse some =>
        rw [List.isEmpty_iff] at some
        cases ended : search.round manager groups numTokens numComputedTokens with
        | error leave =>
            refine ⟨_, rfl, fun last same => ?_⟩
            cases same
        | ok next =>
            have fewer := round_fewer windowed due num ended
            have fuels := lasts some
            have lasts : next.lookupGroups ≠ [] → next.maxHitSizeTokens + 2 ≤ fuel := by
              intro again
              have less := fewer.less again
              omega
            obtain ⟨answer, found, settles⟩ := ih (round_due windowed due some ended) fewer.num (by omega) lasts
            refine ⟨answer, found, fun last same => ?_⟩
            obtain ⟨due, none, most, num⟩ := settles last same
            exact ⟨due, none, most.trans fewer.most, num⟩

/-- A hit that backs all groups is kept by all rounds. -/
theorem rounds_greatest (windowed : ∀ group ∈ groups, ∀ window ∈ group.config.slidingWindowSizeInBlocks, 0 < window)
    (target : ∀ group ∈ groups, group.config.isEagleGroup = false) {fuel hit : Nat}
    (due : Due manager groups numComputedTokens groups search) (small : hit ≤ search.maxHitSizeTokens)
    (num : search.lookupGroups = [] → search.numHitTokens + numComputedTokens = search.maxHitSizeTokens)
    (backed : ∀ group ∈ groups, group.Backed manager numComputedTokens hit) {answer : Except Leave (Search Key)}
    (found : search.rounds manager groups numTokens numComputedTokens fuel = some answer) :
    (∀ last, answer = .ok last → hit ≤ numComputedTokens + last.numHitTokens) ∧
      (answer = .error .noHit → ∃ group ∈ groups, hit < numComputedTokens + group.config.offloadedBlockSize) := by
  induction fuel generalizing search with
  | zero => cases found
  | succ fuel ih =>
      unfold Search.rounds at found
      split at found
      case isTrue none =>
        cases found
        refine ⟨fun last same => ?_, fun same => ?_⟩
        · cases same
          have whole := num (List.isEmpty_iff.mp none)
          omega
        · cases same
      case isFalse some =>
        rw [List.isEmpty_iff] at some
        have keeps : ∀ (before after : List (LookupGroup Key)) (group : LookupGroup Key) (middle : Search Key) next,
            search.lookupGroups = before ++ group :: after → hit ≤ middle.maxHitSizeTokens →
              middle.turn manager groups numTokens numComputedTokens group = next →
                Keeps hit (numComputedTokens + group.config.offloadedBlockSize) next := by
          intro before after group middle next split small taken
          have member : group ∈ groups := due.inside (by simp [split])
          exact taken ▸ turn_greatest (windowed group member) (target group member) small (backed group member)
        cases ended : search.round manager groups numTokens numComputedTokens with
        | error leave =>
            simp only [ended, Option.some.injEq] at found
            subst found
            refine ⟨?_, fun same => ?_⟩
            · rintro last ⟨⟩
            cases same
            obtain ⟨before, group, after, middle, split, reached, failed⟩ := foldlM_fails ended
            have kept : hit ≤ middle.maxHitSizeTokens := by
              refine foldlM_carries (fun _ state => hit ≤ state.maxHitSizeTokens) ?_ small reached
              intro early other late state next inner small taken
              exact keeps early (late ++ group :: after) other state _ (by rw [split, inner]; simp) small taken
            exact ⟨group, due.inside (by simp [split]), keeps before after group middle _ split kept failed⟩
        | ok next =>
            simp only [ended] at found
            have kept : hit ≤ next.maxHitSizeTokens := by
              refine foldlM_carries (fun _ state => hit ≤ state.maxHitSizeTokens) ?_ small ended
              intro before group after state next split small taken
              exact keeps before after group state _ split small taken
            exact ih (round_due windowed due some ended) kept (fun _ => round_num windowed due some ended) found

end Rounds

section Request

variable {specGroups : List KVCacheGroup} {blockSizeFactor numWorkers : Nat} {offloadPromptOnly useEagle : Bool}
  {factored : 0 < blockSizeFactor}

theorem getSlidingWindowSizeInBlocks_pos {spec : KVCacheSpec} {offloadedBlockSize : Nat} (sized : 0 < offloadedBlockSize) :
    ∀ window ∈ getSlidingWindowSizeInBlocks spec offloadedBlockSize, 0 < window := by
  intro window known
  cases spec with
  | fullAttention => cases known
  | mamba =>
      cases known
      exact Nat.one_pos
  | slidingWindow size positive =>
      cases known
      exact Nat.div_pos (by omega) sized

/-- All windows take a block at least. -/
theorem lookupGroups_windowed {status : RequestOffloadState
      (SchedulerOffloadConfig.fromSpec specGroups blockSizeFactor numWorkers offloadPromptOnly useEagle factored) Key} :
    ∀ group ∈ status.lookupGroups, ∀ window ∈ group.config.slidingWindowSizeInBlocks, 0 < window := by
  intro group member
  obtain ⟨⟨⟨groupConfig, groupState⟩, groupIdx⟩, numbered, rfl⟩ := List.mem_map.mp member
  have configured := (List.of_mem_zip (List.mem_zipIdx' numbered |>.2 ▸ List.getElem_mem _)).1
  obtain ⟨specGroup, _, rfl⟩ := List.mem_map.mp configured
  exact getSlidingWindowSizeInBlocks_pos (Nat.mul_pos specGroup.sized factored)

/-- The keys of a hit are those of the blocks that it needs. -/
theorem LookupGroup.Backed.hitKeys {group : LookupGroup Key} {hitTokens : Nat}
    (backed : group.Backed manager numComputedTokens hitTokens) :
    ∀ key ∈ group.hitKeys numComputedTokens hitTokens, manager key = some true := by
  have found : ∀ index, group.needBlock numComputedTokens hitTokens ≤ group.firstBlock numComputedTokens + index →
      ∀ key, (slice group.offloadKeys (group.firstBlock numComputedTokens) (group.endBlock hitTokens))[index]? = some key →
        manager key = some true := by
    intro index needed key there
    rw [slice, List.getElem?_drop, List.getElem?_take] at there
    split at there
    case isTrue below =>
      obtain ⟨other, same, hit⟩ := backed.hits _ needed below
      rw [there] at same
      cases same
      exact hit
    case isFalse => cases there
  intro key member
  unfold LookupGroup.hitKeys at member
  unfold LookupGroup.needBlock at found
  split at member
  case h_1 full =>
    obtain ⟨index, there⟩ := List.mem_iff_getElem?.mp member
    simp only [full] at found
    exact found index (Nat.le_add_right _ _) key there
  case h_2 window slides =>
    obtain ⟨index, there⟩ := List.mem_iff_getElem?.mp member
    simp only [slides] at found
    rw [List.getElem?_drop] at there
    refine found _ ?_ key there
    have length : (slice group.offloadKeys (numComputedTokens / group.config.offloadedBlockSize)
        (cdiv hitTokens group.config.offloadedBlockSize)).length =
          min (cdiv hitTokens group.config.offloadedBlockSize) group.offloadKeys.length -
            numComputedTokens / group.config.offloadedBlockSize := by
      rw [slice, List.length_drop, List.length_take]
    have within : cdiv hitTokens group.config.offloadedBlockSize ≤ group.offloadKeys.length :=
      (cdiv_le group.config.sized).mpr (by rw [Nat.mul_comm]; exact backed.known)
    rw [length, Nat.min_eq_left within]
    simp only [LookupGroup.firstBlock, LookupGroup.endBlock]
    generalize numComputedTokens / group.config.offloadedBlockSize = first
    omega

variable (status : RequestOffloadState
  (SchedulerOffloadConfig.fromSpec specGroups blockSizeFactor numWorkers offloadPromptOnly useEagle factored) Key)

theorem start_due (mambaAlignSize : Option Nat) : Due manager groups numComputedTokens groups
    (Search.start groups numTokens mambaAlignSize) := .all rfl

/-- The rounds of a lookup end. A hit stays within the request, and the manager has all the blocks that it needs: none of
them is being loaded. -/
theorem lookup_backed [DecidableEq Key] (mambaAlignSize : Option Nat) (blocksBeingLoaded : Option (List Key)) {fuel : Nat}
    (enough : maxHitSize status.lookupGroups numTokens mambaAlignSize + 2 ≤ fuel) :
    ∃ answer, lookup manager status.lookupGroups numTokens numComputedTokens mambaAlignSize blocksBeingLoaded fuel =
        some answer ∧
      ∀ hit, answer = .ok (some hit) → 0 < hit →
        numComputedTokens + hit ≤ maxHitSize status.lookupGroups numTokens mambaAlignSize ∧
          ∀ group ∈ status.lookupGroups, group.Backed manager numComputedTokens (numComputedTokens + hit) ∧
            ∀ key ∈ group.hitKeys numComputedTokens (numComputedTokens + hit),
              manager key = some true ∧ key ∉ blocksBeingLoaded.getD [] := by
  obtain ⟨answer, found, settles⟩ := @rounds_settle _ manager _ numTokens numComputedTokens _ lookupGroups_windowed _
    (start_due mambaAlignSize) (.inl rfl) (by omega) (fun _ => enough)
  unfold lookup
  rw [found, Option.map_some]
  refine ⟨_, rfl, fun hit same positive => ?_⟩
  split at same
  case h_1 => cases same; exact absurd positive (Nat.lt_irrefl _)
  case h_2 => cases same
  case h_3 last =>
    obtain ⟨due, none, most, num⟩ := settles last rfl
    split at same
    case isTrue => cases same
    case isFalse clear =>
      split at same
      case isTrue => cases same
      case isFalse unloaded =>
        cases same
        have whole : numComputedTokens + last.numHitTokens = last.maxHitSizeTokens := by omega
        have backed := due.backed none (Bool.eq_false_iff.mpr clear)
        rw [whole] at unloaded ⊢
        refine ⟨most, fun group member => ⟨backed group member, fun key needed => ⟨?_, fun loading => ?_⟩⟩⟩
        · exact (backed group member).hitKeys key needed
        · exact unloaded (List.any_eq_true.mpr ⟨group, member, List.any_eq_true.mpr ⟨key, needed, by simpa using loading⟩⟩)

/-- Without eagle groups no hit that backs all groups is missed, unless it is less than a block of a group. -/
theorem lookup_greatest [DecidableEq Key] (mambaAlignSize : Option Nat) (blocksBeingLoaded : Option (List Key)) {fuel : Nat}
    (some : status.lookupGroups ≠ []) (target : ∀ group ∈ status.lookupGroups, group.config.isEagleGroup = false)
    {hitTokens : Nat} (small : hitTokens ≤ maxHitSize status.lookupGroups numTokens mambaAlignSize)
    (backed : ∀ group ∈ status.lookupGroups, group.Backed manager numComputedTokens hitTokens) {hit : Nat}
    (answer : lookup manager status.lookupGroups numTokens numComputedTokens mambaAlignSize blocksBeingLoaded fuel =
      Option.some (.ok (Option.some hit))) :
    hitTokens ≤ numComputedTokens + hit ∨
      ∃ group ∈ status.lookupGroups, hitTokens < numComputedTokens + group.config.offloadedBlockSize := by
  obtain ⟨left, found, same⟩ := Option.map_eq_some_iff.mp answer
  have first : LookupGroup.lookupOrder status.lookupGroups ≠ [] := by
    obtain ⟨group, member⟩ := List.exists_mem_of_ne_nil _ some
    exact List.ne_nil_of_mem (mem_lookupOrder.mpr member)
  have keeps := rounds_greatest lookupGroups_windowed target (start_due mambaAlignSize) small
    (fun none => absurd none first) backed found
  split at same
  case h_1 => exact .inr (keeps.2 rfl)
  case h_2 => cases same
  case h_3 last =>
    have within := keeps.1 last rfl
    split at same
    case isTrue => cases same
    case isFalse =>
      split at same
      case isTrue => cases same
      case isFalse =>
        cases same
        exact .inl within

end Request

/-- A request with a full group of three blocks and a window of two blocks among six. -/
def windowedRequest : RequestOffloadState (SchedulerOffloadConfig.fromSpec
    [⟨.fullAttention, 2, false, Nat.two_pos⟩, ⟨.slidingWindow 2 Nat.two_pos, 1, false, Nat.one_pos⟩] 1 1 false false
    Nat.one_pos) Nat where
  req := ⟨6, 6, 0⟩
  groupStates := [⟨[1, 2, 3], [], 0⟩, ⟨[11, 12, 13, 14, 15, 16], [], 0⟩]
  grouped := rfl
  maxOffloadTokens := none
  transferJobs := []

/-- A manager that misses the last blocks of the window. -/
def windowedManager (key : Nat) : Option Bool := some (decide (key ∈ [1, 2, 3, 13, 14]))

theorem lookup_backed_windowed :
    lookup windowedManager windowedRequest.lookupGroups 6 0 none (some [16]) 7 = some (.ok (some 4)) ∧
      ∀ group ∈ windowedRequest.lookupGroups, group.Backed windowedManager 0 4 := by
  have answered : lookup windowedManager windowedRequest.lookupGroups 6 0 none (some [16]) 7 = some (.ok (some 4)) := by
    decide +kernel
  refine ⟨answered, fun group member => ?_⟩
  obtain ⟨answer, found, hits⟩ := @lookup_backed _ windowedManager 6 0 _ _ _ _ _ _ windowedRequest _ none (some [16]) _
    (by decide +kernel : maxHitSize windowedRequest.lookupGroups 6 none + 2 ≤ 7)
  cases found.symm.trans answered
  exact ((hits 4 rfl (by decide)).2 group member).1

theorem lookup_greatest_windowed :
    4 ≤ 0 + 4 ∨ ∃ group ∈ windowedRequest.lookupGroups, 4 < 0 + group.config.offloadedBlockSize :=
  lookup_greatest windowedRequest none (some [16]) (by decide +kernel) (by decide +kernel)
    (by decide +kernel : 4 ≤ maxHitSize windowedRequest.lookupGroups 6 none)
    (by decide +kernel : ∀ group ∈ windowedRequest.lookupGroups, group.Backed windowedManager 0 4)
    (by decide +kernel : lookup windowedManager windowedRequest.lookupGroups 6 0 none (some [16]) 7 =
      some (.ok (some 4)))

end DgxSpark.Offload
