import DgxSpark.Library.Run
import DgxSpark.Slab.Attach

namespace DgxSpark.Slab

/-- One call on the manager. A completion or a failure mark names an open job by its place, and the
keys of the job in any order. -/
inductive Call (Key : Type) where
  | lookup (key : Key)
  | touch (keys : List Key)
  | prepareStore (keys : List Key)
  | completeStore (job : Nat) (keys : List Key) (success : Bool)
  | prepareLoad (keys : List Key)
  | completeLoad (job : Nat) (keys : List Key)
  | markStoreFailed (job : Nat) (keys : List Key)
  | markLoadFailed (job : Nat) (keys : List Key)
  | resetCache

/-- The desk keeps the jobs that were prepared since the last reset and are not completed. -/
structure Desk (Key : Type) (groups : Nat) where
  manager : SlabOffloadingManager Key groups
  stores : List (List Key)
  loads : List (List (Key × Int))

namespace Desk

open SlabOffloadingManager

variable {Key : Type} [DecidableEq Key] {groups : Nat} (group : Key → Fin groups)

/-- A fresh process that attached, with no job. -/
def opened (counts : Fin groups → Nat) (epoch : Int) (header : Fin groups → Nat → Option (Nat × Key)) :
    Desk Key groups := ⟨.attach counts epoch header, [], []⟩

/-- A call is enabled when the job it names is open and has these keys. -/
def step (desk : Desk Key groups) : Call Key → Option (Desk Key groups)
  | .lookup key => some { desk with manager := (desk.manager.lookup group key).2 }
  | .touch keys => some { desk with manager := desk.manager.touch group keys }
  | .prepareStore keys =>
      let (answer, next) := desk.manager.prepareStore group keys
      match answer with
      | .store output => some { desk with manager := next, stores := desk.stores ++ [output.keysToStore] }
      | _ => some { desk with manager := next }
  | .completeStore job keys success =>
      (desk.stores[job]?).bind fun named =>
        if keys.Perm named then
          some { desk with
            manager := desk.manager.completeStore group keys success
            stores := desk.stores.eraseIdx job }
        else none
  | .prepareLoad keys =>
      let (spec, next) := desk.manager.prepareLoad group keys
      some { desk with manager := next, loads := desk.loads ++ [spec.keys.zip spec.slots] }
  | .completeLoad job keys =>
      (desk.loads[job]?).bind fun named =>
        if keys.Perm (named.map Prod.fst) then
          some { desk with
            manager := desk.manager.completeLoad group keys
            loads := desk.loads.eraseIdx job }
        else none
  | .markStoreFailed job keys =>
      (desk.stores[job]?).bind fun named =>
        if keys.Perm named then some { desk with manager := desk.manager.markStoreFailed keys } else none
  | .markLoadFailed job keys =>
      (desk.loads[job]?).bind fun named =>
        if keys.Perm (named.map Prod.fst) then
          some { desk with manager := desk.manager.markLoadFailed group keys }
        else none
  | .resetCache => some ⟨desk.manager.resetCache, [], []⟩

/-- Everything one enabled call can do to the desk. -/
inductive Taken (desk : Desk Key groups) : Call Key → Desk Key groups → Prop where
  | lookup (key : Key) : Taken desk (.lookup key) { desk with manager := (desk.manager.lookup group key).2 }
  | touch (keys : List Key) : Taken desk (.touch keys) { desk with manager := desk.manager.touch group keys }
  | storeRetry (keys : List Key) (same : desk.manager.prepareStore group keys = (.retry, desk.manager)) :
      Taken desk (.prepareStore keys) desk
  | store (keys : List Key) (output : PrepareStoreOutput Key) (next : SlabOffloadingManager Key groups)
      (same : desk.manager.prepareStore group keys = (.store output, next)) :
      Taken desk (.prepareStore keys)
        { desk with manager := next, stores := desk.stores ++ [output.keysToStore] }
  | completeStore (job : Nat) (keys : List Key) (success : Bool) (named : List Key)
      (opened : desk.stores[job]? = some named) (names : keys.Perm named) :
      Taken desk (.completeStore job keys success) { desk with
        manager := desk.manager.completeStore group keys success
        stores := desk.stores.eraseIdx job }
  | load (keys : List Key) : Taken desk (.prepareLoad keys) { desk with
      manager := (desk.manager.prepareLoad group keys).2
      loads := desk.loads ++ [keys.map fun key => (key, desk.manager.loadSlot group key)] }
  | completeLoad (job : Nat) (keys : List Key) (named : List (Key × Int))
      (opened : desk.loads[job]? = some named) (names : keys.Perm (named.map Prod.fst)) :
      Taken desk (.completeLoad job keys) { desk with
        manager := desk.manager.completeLoad group keys
        loads := desk.loads.eraseIdx job }
  | markStoreFailed (job : Nat) (keys : List Key) :
      Taken desk (.markStoreFailed job keys) { desk with manager := desk.manager.markStoreFailed keys }
  | markLoadFailed (job : Nat) (keys : List Key) (named : List (Key × Int))
      (opened : desk.loads[job]? = some named) (names : keys.Perm (named.map Prod.fst)) :
      Taken desk (.markLoadFailed job keys) { desk with manager := desk.manager.markLoadFailed group keys }
  | resetCache : Taken desk .resetCache ⟨desk.manager.resetCache, [], []⟩

variable {group}

theorem zip_map_self {α β : Type} (items : List α) (f : α → β) :
    items.zip (items.map f) = items.map fun item => (item, f item) := by
  induction items with
  | nil => rfl
  | cons head tail ih => rw [List.map_cons, List.zip_cons_cons, ih, List.map_cons]

theorem step_cases {desk next : Desk Key groups} {call : Call Key} (taken : step group desk call = some next) :
    Taken group desk call next := by
  cases call with
  | lookup key => exact Option.some.inj taken ▸ .lookup key
  | touch keys => exact Option.some.inj taken ▸ .touch keys
  | prepareStore keys =>
      simp only [step] at taken
      rcases prepareStore_cases group desk.manager keys with same | ⟨_, _, _, _, _, _, same⟩
      · rw [same] at taken
        exact Option.some.inj taken ▸ .storeRetry keys same
      · rw [same] at taken
        exact Option.some.inj taken ▸ .store keys _ _ same
  | completeStore job keys success =>
      simp only [step, Option.bind_eq_some_iff] at taken
      obtain ⟨named, opened, rest⟩ := taken
      split at rest
      · rename_i names
        exact Option.some.inj rest ▸ .completeStore job keys success named opened names
      · cases rest
  | prepareLoad keys =>
      simp only [step, prepareLoad, zip_map_self] at taken
      exact Option.some.inj taken ▸ .load keys
  | completeLoad job keys =>
      simp only [step, Option.bind_eq_some_iff] at taken
      obtain ⟨named, opened, rest⟩ := taken
      split at rest
      · rename_i names
        exact Option.some.inj rest ▸ .completeLoad job keys named opened names
      · cases rest
  | markStoreFailed job keys =>
      simp only [step, Option.bind_eq_some_iff] at taken
      obtain ⟨named, opened, rest⟩ := taken
      split at rest
      · exact Option.some.inj rest ▸ .markStoreFailed job keys
      · cases rest
  | markLoadFailed job keys =>
      simp only [step, Option.bind_eq_some_iff] at taken
      obtain ⟨named, opened, rest⟩ := taken
      split at rest
      · rename_i names
        exact Option.some.inj rest ▸ .markLoadFailed job keys named opened names
      · cases rest
  | resetCache => exact Option.some.inj taken ▸ .resetCache

theorem flatten_eraseIdx {α : Type} {jobs : List (List α)} {job : Nat} {named : List α}
    (opened : jobs[job]? = some named) : (named ++ (jobs.eraseIdx job).flatten).Perm jobs.flatten := by
  obtain ⟨inside, rfl⟩ := List.getElem?_eq_some_iff.mp opened
  exact (List.getElem_cons_eraseIdx_perm inside).flatten

variable (group) in
/-- The custody invariant against all open loads of the desk. -/
def Sound (desk : Desk Key groups) : Prop := desk.manager.Custody group desk.loads.flatten

theorem opened_sound (counts : Fin groups → Nat) (epoch : Int)
    (header : Fin groups → Nat → Option (Nat × Key)) : (opened counts epoch header).Sound group :=
  attach_custody group counts epoch header

theorem step_sound (desk : Desk Key groups) (call : Call Key) (next : Desk Key groups)
    (sound : desk.Sound group) (taken : step group desk call = some next) :
    next.Sound group := by
  cases step_cases taken with
  | lookup key => exact lookup_custody sound key
  | touch keys => exact touch_custody sound keys
  | storeRetry keys same => exact sound
  | store keys output next same =>
      have kept := (prepareStore_custody sound keys).1
      rw [same] at kept
      exact kept
  | completeStore job keys success named opened names => exact (completeStore_custody success keys sound).1
  | load keys =>
      refine (prepareLoad_custody keys sound).1.mono ?_
      rw [List.flatten_append, List.flatten_singleton]
      exact List.perm_append_comm.subperm
  | completeLoad job keys named opened names =>
      exact completeLoad_custody keys names.subperm (sound.mono (flatten_eraseIdx opened).subperm)
  | markStoreFailed job keys => exact markStoreFailed_custody sound keys
  | markLoadFailed job keys named opened names => exact markLoadFailed_custody keys sound
  | resetCache => exact resetCache_custody desk.manager

variable (group) in
/-- Every slot of an attached manager has at most one owner, and no slot that a prepared load may still
read is free, is being stored, or is indexed under another key. -/
theorem slots_keep_one_owner (counts : Fin groups → Nat) (epoch : Int)
    (header : Fin groups → Nat → Option (Nat × Key)) (calls : List (Call Key)) (desk : Desk Key groups)
    (reached : Run.run (step group) (opened counts epoch header) calls = some desk) :
    (∀ g, (desk.manager.held group g).Nodup ∧
      ∀ slot ∈ desk.manager.held group g, slot < desk.manager.counts g) ∧
    ∀ load ∈ desk.loads, ∀ key (slot : Nat), (key, (slot : Int)) ∈ load →
      slot ∉ desk.manager.free (group key) ∧
      (∀ other, group other = group key → desk.manager.inflightStore.get? other ≠ some slot) ∧
      ∀ other, (desk.manager.index (group key)).get? other = some slot → other = key := by
  have sound : desk.Sound group :=
    Run.run_invariant step_sound (opened_sound counts epoch header) reached
  refine ⟨fun g => ⟨(held_nodup_iff group _ g).mpr (sound.once g), ?_⟩, ?_⟩
  · intro slot inside
    have positive := (mem_held_iff group desk.manager g slot).mp inside
    by_contra outside
    have none := sound.within g slot (Nat.not_lt.mp outside)
    omega
  · intro load opened key slot inside
    have guard := sound.guarded key slot (List.mem_flatten.mpr ⟨load, opened, inside⟩)
    exact ⟨guard.notFree, guard.notStored, guard.indexedHere⟩

/-- One group holds every key. -/
def loneGroup (_ : Nat) : Fin 1 := Fin.last 0

/-- A failed block is stored again while its first load is still open. -/
def storedAgain : List (Call Nat) :=
  [.prepareStore [7], .completeStore 0 [7] true, .prepareLoad [7], .markLoadFailed 0 [7], .prepareStore [7]]

theorem slots_keep_one_owner_storedAgain :
    ∃ desk, Run.run (step loneGroup) (opened (fun _ => 2) 0 fun _ _ => none) storedAgain = some desk ∧
      desk.loads = [[(7, 0)]] ∧ desk.manager.inflightStore.entries = [(7, 1)] ∧
      (desk.manager.held loneGroup 0).Nodup ∧ 0 ∉ desk.manager.free 0 :=
  ⟨_, rfl, rfl, rfl,
    ((slots_keep_one_owner loneGroup (fun _ => 2) 0 (fun _ _ => none) storedAgain _ rfl).1 0).1,
    ((slots_keep_one_owner loneGroup (fun _ => 2) 0 (fun _ _ => none) storedAgain _ rfl).2
      [(7, 0)] List.mem_cons_self 7 0 List.mem_cons_self).1⟩

end Desk

end DgxSpark.Slab
