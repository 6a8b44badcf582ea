import DgxSpark.Nvme.LoaderState

/-
This file shows when the recorded scalar delta reproduces the scalars of the model that the native loader left.
-/

namespace DgxSpark.Nvme.Loader

variable {F : Type}

namespace Value

/-- Induction on a value may use what holds for the items and the fields. -/
@[elab_as_elim] theorem induct {motive : Value F → Prop} (none : motive .none) (bool : ∀ value, motive (.bool value))
    (int : ∀ value, motive (.int value)) (float : ∀ value, motive (.float value)) (str : ∀ value, motive (.str value))
    (sequence : ∀ type items, (∀ item ∈ items, motive item) → motive (.sequence type items))
    (set : ∀ members, motive (.set members))
    (dict : ∀ type fields, (∀ field ∈ fields, motive field.2) → motive (.dict type fields))
    (tensor : ∀ identity address shape dtype, motive (.tensor identity address shape dtype))
    (object : ∀ type identity address, motive (.object type identity address)) (value : Value F) : motive value :=
  @Value.rec F motive (fun items => ∀ item ∈ items, motive item) (fun fields => ∀ field ∈ fields, motive field.2)
    (fun field => motive field.2) none bool int float str sequence set dict tensor object
    (fun _ inside => absurd inside List.not_mem_nil)
    (fun _ _ head tail item inside => (List.mem_cons.mp inside).elim (fun same => same ▸ head) (tail item))
    (fun _ inside => absurd inside List.not_mem_nil)
    (fun _ _ head tail field inside => (List.mem_cons.mp inside).elim (fun same => same ▸ head) (tail field))
    (fun _ _ atValue => atValue) value

theorem simpleItems_eq (items : List (Value F)) : simpleItems items = items.all simple := by
  induction items with
  | nil => rfl
  | cons item rest ih => rw [simpleItems, ih, List.all_cons]

theorem simpleFields_eq (fields : List (String × Value F)) :
    simpleFields fields = fields.all fun field => field.2.simple := by
  induction fields with
  | nil => rfl
  | cons field rest ih => rw [simpleFields, ih, List.all_cons]

theorem itemsJson_eq (items : List (Value F)) : itemsJson items = items.map json := by
  induction items with
  | nil => rfl
  | cons item rest ih => rw [itemsJson, ih, List.map_cons]

theorem fieldsJson_eq (fields : List (String × Value F)) :
    fieldsJson fields = fields.map fun field => (field.1, field.2.json) := by
  induction fields with
  | nil => rfl
  | cons field rest ih => rw [fieldsJson, ih, List.map_cons]

theorem ofItems_eq (items : List (Json F)) : ofItems items = items.map ofJson := by
  induction items with
  | nil => rfl
  | cons item rest ih => rw [ofItems, ih, List.map_cons]

theorem ofFields_eq (fields : List (String × Json F)) :
    ofFields fields = fields.map fun field => (field.1, ofJson field.2) := by
  induction fields with
  | nil => rfl
  | cons field rest ih => rw [ofFields, ih, List.map_cons]

theorem sortedItems_eq (items : List (Value F)) : sortedItems items = items.map sorted := by
  induction items with
  | nil => rfl
  | cons item rest ih => rw [sortedItems, ih, List.map_cons]

theorem sortedFields_eq (fields : List (String × Value F)) :
    sortedFields fields = fields.map fun field => (field.1, field.2.sorted) := by
  induction fields with
  | nil => rfl
  | cons field rest ih => rw [sortedFields, ih, List.map_cons]

/-- What was read from a text is simple and is written as it was. -/
theorem ofJson_simple (value : Json F) : (ofJson value).simple = true ∧ (ofJson value).json = value := by
  induction value using Json.induct with
  | null => exact ⟨rfl, rfl⟩
  | bool => exact ⟨rfl, rfl⟩
  | int => exact ⟨rfl, rfl⟩
  | float => exact ⟨rfl, rfl⟩
  | str => exact ⟨rfl, rfl⟩
  | list items ih =>
      rw [ofJson, simple, json, simpleItems_eq, itemsJson_eq, ofItems_eq, List.all_map, List.map_map]
      have kept : items.map (json ∘ ofJson) = items := by
        conv_rhs => rw [← List.map_id items]
        exact List.map_congr_left fun item inside => (ih item inside).2
      rw [kept]
      exact ⟨by simpa using fun item inside => (ih item inside).1, rfl⟩
  | object fields ih =>
      rw [ofJson, simple, json, simpleFields_eq, fieldsJson_eq, ofFields_eq, List.all_map, List.map_map]
      have kept :
          fields.map ((fun field => (field.1, field.2.json)) ∘ fun field => (field.1, ofJson field.2)) = fields := by
        conv_rhs => rw [← List.map_id fields]
        exact List.map_congr_left fun field inside => Prod.ext rfl (ih field inside).2
      rw [kept]
      refine ⟨?_, rfl⟩
      simp only [beq_self_eq_true, Bool.true_and, List.all_eq_true]
      exact fun field inside => (ih field inside).1

theorem ofJson_json {value : Value F} (simple : value.simple = true) : ofJson value.json = value := by
  induction value using induct with
  | none => rfl
  | bool => rfl
  | int => rfl
  | float => rfl
  | str => rfl
  | sequence type items ih =>
      rw [Value.simple, simpleItems_eq, Bool.and_eq_true, beq_iff_eq, List.all_eq_true] at simple
      rw [json, ofJson, itemsJson_eq, ofItems_eq, List.map_map, simple.1]
      conv_rhs => rw [← List.map_id items]
      exact congrArg (sequence "list") (List.map_congr_left fun item inside => ih item inside (simple.2 item inside))
  | dict type fields ih =>
      rw [Value.simple, simpleFields_eq, Bool.and_eq_true, beq_iff_eq, List.all_eq_true] at simple
      rw [json, ofJson, fieldsJson_eq, ofFields_eq, List.map_map, simple.1]
      conv_rhs => rw [← List.map_id fields]
      exact congrArg (dict "dict")
        (List.map_congr_left fun field inside => Prod.ext rfl (ih field inside (simple.2 field inside)))
  | set => cases simple
  | tensor => cases simple
  | object => cases simple

theorem ofJson_injective : Function.Injective (ofJson : Json F → Value F) := by
  intro first second same
  rw [← (ofJson_simple first).2, same, (ofJson_simple second).2]

theorem ofJson_sorted (value : Json F) : ofJson value.sorted = (ofJson value).sorted := by
  induction value using Json.induct with
  | null => rfl
  | bool => rfl
  | int => rfl
  | float => rfl
  | str => rfl
  | list items ih =>
      rw [Json.sorted, ofJson, ofJson, sorted, Json.sortedItems_eq, sortedItems_eq, ofItems_eq, ofItems_eq,
        List.map_map, List.map_map]
      exact congrArg (sequence "list") (List.map_congr_left ih)
  | object fields ih =>
      rw [Json.sorted, ofJson, ofJson, sorted, Json.sortedFields_eq, sortedFields_eq, ofFields_eq, ofFields_eq,
        Json.map_sortKeys, List.map_map, List.map_map]
      exact congrArg (dict "dict" ∘ Json.sortKeys)
        (List.map_congr_left fun field inside => Prod.ext rfl (ih field inside))

/-- Simple values are the same when they have one canonical text. -/
theorem sorted_eq_iff_canonical {first second : Value F} (simple : first.simple = true)
    (other : second.simple = true) :
    first.sorted = second.sorted ↔ first.json.canonical = second.json.canonical := by
  rw [Json.canonical_eq_iff, ← ofJson_injective.eq_iff, ofJson_sorted, ofJson_sorted, ofJson_json simple,
    ofJson_json other]

end Value

theorem reload_eq (value : Json F) : reload value = value.sorted := by
  rw [reload, Json.loads_canonical, Option.getD_some]

theorem field?_eq (value : Json F) (key : String) : value.field? key = (items value).lookup key := by
  cases value <;> rfl

/-- What a dict of dicts has at a name and a key. -/
def entryOf (state : Json F) (name key : String) : Option (Json F) := (state.field? name).bind (·.field? key)

/-- A dict of dicts as Python has it. -/
structure Distinct (state : Json F) : Prop where
  names : ((items state).map Prod.fst).Nodup
  keys : ∀ name attrs, state.field? name = some attrs → ((items attrs).map Prod.fst).Nodup

theorem items_sorted_keys (value : Json F) :
    ((items value.sorted).map Prod.fst).Perm ((items value).map Prod.fst) := by
  cases value with
  | object fields =>
      show ((Json.sortKeys (Json.sortedFields fields)).map Prod.fst).Perm (fields.map Prod.fst)
      rw [← Json.sortedFields_keys fields]
      exact (Json.sortKeys_perm _).map Prod.fst
  | _ => exact .refl _

theorem field?_sorted {value : Json F} (nodup : ((items value).map Prod.fst).Nodup) (key : String) :
    value.sorted.field? key = (value.field? key).map Json.sorted := by
  cases value with
  | object fields => exact Json.lookup_sorted nodup key
  | _ => rfl

theorem Distinct.sorted {state : Json F} (distinct : Distinct state) : Distinct state.sorted := by
  refine ⟨(items_sorted_keys state).nodup_iff.mpr distinct.names, fun name attrs found => ?_⟩
  rw [field?_sorted distinct.names, Option.map_eq_some_iff] at found
  obtain ⟨old, known, rfl⟩ := found
  exact (items_sorted_keys old).nodup_iff.mpr (distinct.keys name old known)

theorem entryOf_sorted {state : Json F} (distinct : Distinct state) (name key : String) :
    entryOf state.sorted name key = (entryOf state name key).map Json.sorted := by
  rw [entryOf, entryOf, field?_sorted distinct.names]
  cases found : state.field? name with
  | none => rfl
  | some attrs => exact field?_sorted (distinct.keys name attrs found) key

namespace Model

def attributeAt (model : Model F) (name key : String) :
    Option (Value F) := (model.modules.get? name).bind (·.get? key)

/-- The public simple attributes as JSON. -/
def scalar (model : Model F) (name key : String) :
    Option (Json F) := (model.attributeAt name key).bind (scalarOf key)

def tagAt (model : Model F) (name key : String) : Option (Json F) :=
  (model.attributeAt name key).bind fun value => if key ∈ registries then none else some value.tag

theorem scalar_some {model : Model F} {name key : String} {plain : Json F}
    (found : model.scalar name key = some plain) : ∃ value, model.attributeAt name key = some value ∧
      isPublic key = true ∧ value.simple = true ∧ value.json = plain := by
  obtain ⟨value, known, given⟩ := Option.bind_eq_some_iff.mp found
  unfold scalarOf at given
  split at given
  case isTrue both =>
    rw [Bool.and_eq_true] at both
    exact ⟨value, known, both.1, both.2, Option.some.inj given⟩
  case isFalse => cases given

end Model

section Snapshots

/-- The dict of dicts that `scalar_state` writes. -/
def rawScalars (model : Model F) : Json F :=
  .object (model.modules.mapValues fun vars => Json.object (vars.filterMap scalarOf).entries).entries

theorem rawScalars_field? (model : Model F) (name : String) :
    (rawScalars model).field? name =
      (model.modules.get? name).map fun vars => Json.object (vars.filterMap scalarOf).entries :=
  OrderedDict.get?_mapValues model.modules _ name

theorem rawScalars_distinct (model : Model F) : Distinct (rawScalars model) := by
  refine ⟨OrderedDict.nodup _, fun name attrs found => ?_⟩
  rw [rawScalars_field?, Option.map_eq_some_iff] at found
  obtain ⟨vars, _, rfl⟩ := found
  exact OrderedDict.nodup _

theorem rawScalars_entryOf (model : Model F) (name key : String) :
    entryOf (rawScalars model) name key = model.scalar name key := by
  rw [entryOf, rawScalars_field?, Model.scalar, Model.attributeAt]
  cases model.modules.get? name with
  | none => rfl
  | some vars => exact OrderedDict.get?_filterMap vars scalarOf key

theorem scalarState_distinct (model : Model F) : Distinct (scalarState model) := by
  rw [scalarState, reload_eq]
  exact (rawScalars_distinct model).sorted

theorem scalarState_entryOf (model : Model F) (name key : String) :
    entryOf (scalarState model) name key = (model.scalar name key).map Json.sorted := by
  rw [scalarState, reload_eq, ← rawScalars_entryOf]
  exact entryOf_sorted (rawScalars_distinct model) name key

theorem objectState_tagAt (model : Model F) (name key : String) :
    (((objectState model).get? name).getD .empty).get? key = model.tagAt name key := by
  rw [objectState, OrderedDict.get?_mapValues, Model.tagAt, Model.attributeAt]
  cases model.modules.get? name with
  | none => rfl
  | some vars =>
      exact OrderedDict.get?_filterMap vars
        (fun key value => if key ∈ registries then none else some value.tag) key

end Snapshots

section Delta

variable [FiniteFloat F]

theorem changes_field? (before : Json F) {attrs : Json F} (nodup : ((items attrs).map Prod.fst).Nodup)
    (name key : String) :
    (changes before name attrs).bind (·.field? key) =
      (attrs.field? key).filter fun value => differs before name (key, value) := by
  rw [field?_eq, ← OrderedDict.lookup_filter nodup, changes]
  split
  case isTrue empty =>
    rw [List.isEmpty_iff.mp empty]
    rfl
  case isFalse => rfl

theorem scalarDelta_ok {before after delta : Json F} (recorded : scalarDelta before after = .ok delta) :
    (∀ entry ∈ items before, ∃ found, after.field? entry.1 = some found ∧
      ∀ field ∈ items entry.2, (found.field? field.1).isSome) ∧
    delta = .object ((items after).filterMap fun entry =>
      (changes before entry.1 entry.2).map fun changed => (entry.1, changed)) := by
  simp only [scalarDelta] at recorded
  split at recorded
  case isTrue => cases recorded
  case isFalse kept =>
    refine ⟨fun entry inside => ?_, (Except.ok.inj recorded).symm⟩
    rw [Bool.not_eq_true, List.any_eq_false] at kept
    have here := kept entry inside
    cases found : after.field? entry.1 with
    | none => simp [found] at here
    | some attrs =>
        refine ⟨attrs, rfl, fun field member => ?_⟩
        simp only [found, List.any_eq_true, not_exists, not_and, Option.isNone_iff_eq_none] at here
        exact Option.isSome_iff_ne_none.mpr (here field member)

/-- A delta that is recorded leaves out no scalar of before. -/
theorem scalarDelta_keeps {before after delta : Json F} (recorded : scalarDelta before after = .ok delta)
    {name key : String} {old : Json F} (found : entryOf before name key = some old) :
    ∃ new, entryOf after name key = some new := by
  obtain ⟨attrs, known, given⟩ := Option.bind_eq_some_iff.mp found
  rw [field?_eq] at known given
  obtain ⟨front, back, split, _⟩ := List.lookup_eq_some_iff.mp known
  obtain ⟨inner, tail, inside, _⟩ := List.lookup_eq_some_iff.mp given
  obtain ⟨kept, there, all⟩ := (scalarDelta_ok recorded).1 (name, attrs) (by simp [split])
  obtain ⟨new, same⟩ := Option.isSome_iff_exists.mp (all (key, old) (by simp [inside]))
  exact ⟨new, by rw [entryOf, there, Option.bind_some, same]⟩

theorem scalarDelta_entryOf {before after delta : Json F} (distinct : Distinct after)
    (recorded : scalarDelta before after = .ok delta) (name key : String) :
    entryOf delta name key = (entryOf after name key).filter fun value => differs before name (key, value) := by
  have lookup := OrderedDict.lookup_filterMap distinct.names (changes before) name
  rw [(scalarDelta_ok recorded).2, entryOf, entryOf]
  show (List.lookup name _).bind _ = _
  rw [lookup, ← field?_eq]
  cases found : after.field? name with
  | none => rfl
  | some attrs => exact changes_field? before (distinct.keys name attrs found) name key

theorem scalarDelta_distinct {before after delta : Json F} (distinct : Distinct after)
    (recorded : scalarDelta before after = .ok delta) :
    Distinct delta ∧ ∀ name attrs, delta.field? name = some attrs → ∃ found, after.field? name = some found := by
  have lookup (name : String) := OrderedDict.lookup_filterMap distinct.names (changes before) name
  rw [(scalarDelta_ok recorded).2]
  refine ⟨⟨distinct.names.sublist (OrderedDict.filterMap_keys _ _), fun name attrs found => ?_⟩,
    fun name attrs found => ?_⟩
  · obtain ⟨old, known, given⟩ := Option.bind_eq_some_iff.mp ((lookup name).symm.trans found)
    rw [← field?_eq] at known
    simp only [changes] at given
    split at given
    case isTrue => cases given
    case isFalse =>
      cases given
      exact (distinct.keys name old known).sublist (List.filter_sublist.map Prod.fst)
  · obtain ⟨old, known, _⟩ := Option.bind_eq_some_iff.mp ((lookup name).symm.trans found)
    exact ⟨old, by rw [field?_eq, known]⟩

end Delta

section Restore

theorem setattrs_get? (vars : Attributes F) {attrs : Json F} (nodup : ((items attrs).map Prod.fst).Nodup)
    (key : String) :
    (setattrs vars attrs).get? key = ((attrs.field? key).map Value.ofJson).or (vars.get? key) := by
  have keys : ((Value.ofFields (items attrs)).map Prod.fst).Nodup := by
    rw [Value.ofFields_eq, Json.mapFields_keys]
    exact nodup
  rw [setattrs, OrderedDict.get?_update vars keys, Value.ofFields_eq, Json.lookup_mapFields, field?_eq]

/-- The loop finds every module, and each module gets the attributes of its entry. -/
theorem restoreModule_fold {entries : List (String × Json F)} (nodup : (entries.map Prod.fst).Nodup)
    (modules : OrderedDict String (Attributes F)) (present : ∀ entry ∈ entries, entry.1 ∈ modules.keys) :
    ∃ restored, entries.foldlM restoreModule modules = some restored ∧ ∀ name,
      restored.get? name = (modules.get? name).map fun vars =>
        ((entries.lookup name).map (setattrs vars)).getD vars := by
  induction entries generalizing modules with
  | nil =>
      refine ⟨modules, rfl, fun name => ?_⟩
      cases modules.get? name <;> rfl
  | cons entry rest ih =>
      rw [List.map_cons, List.nodup_cons] at nodup
      obtain ⟨vars, known⟩ := OrderedDict.mem_keys_iff.mp (present entry List.mem_cons_self)
      have later : ∀ other ∈ rest, other.1 ∈ (modules.set entry.1 (setattrs vars entry.2)).keys := by
        intro other inside
        obtain ⟨found, there⟩ := OrderedDict.mem_keys_iff.mp (present other (List.mem_cons_of_mem _ inside))
        have different : other.1 ≠ entry.1 := fun same => nodup.1 (List.mem_map.mpr ⟨other, inside, same⟩)
        exact OrderedDict.mem_keys_iff.mpr ⟨found, (OrderedDict.get?_set_of_ne _ _ different).trans there⟩
      obtain ⟨restored, folded, reads⟩ := ih nodup.2 _ later
      refine ⟨restored, ?_, fun name => ?_⟩
      · rw [List.foldlM_cons, restoreModule, known]
        exact folded
      · rw [reads name, List.lookup_cons]
        by_cases same : name = entry.1
        · have absent : rest.lookup entry.1 = none := by
            rw [List.lookup_eq_none_iff]
            intro other inside
            rw [bne_iff_ne]
            exact fun equal => nodup.1 (List.mem_map.mpr ⟨other, inside, equal.symm⟩)
          rw [same, absent, OrderedDict.get?_set_self, known, beq_self_eq_true]
          rfl
        · rw [OrderedDict.get?_set_of_ne _ _ same, beq_false_of_ne same]

theorem restoreScalars_some {fresh : Model F} {delta : Json F} (distinct : Distinct delta)
    (present : ∀ name attrs, delta.field? name = some attrs → name ∈ fresh.modules.keys) :
    ∃ restored, restoreScalars fresh delta.canonical = some restored ∧ ∀ name key,
      restored.attributeAt name key =
        ((entryOf delta.sorted name key).map Value.ofJson).or (fresh.attributeAt name key) := by
  have whole := distinct.sorted
  have known : ∀ name attrs, delta.sorted.field? name = some attrs → name ∈ fresh.modules.keys := by
    intro name attrs found
    rw [field?_sorted distinct.names, Option.map_eq_some_iff] at found
    obtain ⟨old, there, _⟩ := found
    exact present name old there
  have inside : ∀ entry ∈ items delta.sorted, entry.1 ∈ fresh.modules.keys := fun entry member =>
    known entry.1 entry.2 (by rw [field?_eq, OrderedDict.lookup_of_mem whole.names member])
  obtain ⟨modules, folded, reads⟩ := restoreModule_fold whole.names fresh.modules inside
  refine ⟨{ fresh with modules }, ?_, fun name key => ?_⟩
  · rw [restoreScalars, Json.loads_canonical, Option.bind_some, folded, Option.map_some]
  · rw [Model.attributeAt, Model.attributeAt, entryOf]
    show (modules.get? name).bind _ = _
    rw [reads name, ← field?_eq]
    cases found : delta.sorted.field? name with
    | none => cases fresh.modules.get? name <;> rfl
    | some attrs =>
        obtain ⟨vars, there⟩ := OrderedDict.mem_keys_iff.mp (known name attrs found)
        rw [there]
        exact setattrs_get? vars (whole.keys name attrs found) key

end Restore

section Replay

theorem scalar_ofJson {key : String} (visible : isPublic key = true) (plain : Json F) :
    scalarOf key (Value.ofJson plain) = some plain := by
  rw [scalarOf, visible, (Value.ofJson_simple plain).1, (Value.ofJson_simple plain).2]
  rfl

variable [FiniteFloat F]

/-- A freshly constructed copy has the same modules with the same scalars. -/
structure FreshCopy (constructed fresh : Model F) : Prop where
  names : ∀ name, name ∈ constructed.modules.keys → name ∈ fresh.modules.keys
  scalars : ∀ name key, fresh.scalar name key = constructed.scalar name key

/-- What the replay makes of a scalar: Python equality decides whether the recorded one replaces the old one. -/
def reproduced (old new : Option (Json F)) : Option (Json F) :=
  new.map fun new => (old.filter (·.equal new)).getD new.sorted

theorem differs_scalarState (model : Model F) (name key : String) (value : Json F) :
    differs (scalarState model) name (key, value) = !(model.scalar name key).any (·.equal value) := by
  have found := scalarState_entryOf model name key
  unfold entryOf at found
  rw [differs, found]
  cases model.scalar name key with
  | none => rfl
  | some old => exact congrArg not (Json.equal_sorted_left old value)

variable {constructed loaded fresh : Model F} {delta : Json F}

theorem delta_scalar (recorded : scalarDelta (scalarState constructed) (scalarState loaded) = .ok delta)
    (name key : String) :
    entryOf delta name key = ((loaded.scalar name key).map Json.sorted).filter fun value =>
      !(constructed.scalar name key).any (·.equal value) := by
  rw [scalarDelta_entryOf (scalarState_distinct loaded) recorded, scalarState_entryOf]
  cases loaded.scalar name key with
  | none => rfl
  | some new => simp only [Option.map_some, Option.filter_some, differs_scalarState]

/-- The replay of a recorded delta succeeds and gives every scalar the loaded value or an equal one. -/
theorem restored_scalars (copy : FreshCopy constructed fresh)
    (tree : ∀ name, name ∈ loaded.modules.keys → name ∈ constructed.modules.keys)
    (recorded : scalarDelta (scalarState constructed) (scalarState loaded) = .ok delta) :
    ∃ restored, restoreScalars fresh delta.canonical = some restored ∧ ∀ name key,
      restored.scalar name key = reproduced (constructed.scalar name key) (loaded.scalar name key) := by
  obtain ⟨distinct, within⟩ := scalarDelta_distinct (scalarState_distinct loaded) recorded
  have present : ∀ name attrs, delta.field? name = some attrs → name ∈ fresh.modules.keys := by
    intro name attrs found
    obtain ⟨state, known⟩ := within name attrs found
    rw [scalarState, reload_eq, ← rawScalars, field?_sorted (rawScalars_distinct loaded).names, rawScalars_field?,
      Option.map_map, Option.map_eq_some_iff] at known
    obtain ⟨vars, there, _⟩ := known
    exact copy.names name (tree name (OrderedDict.mem_keys_iff.mpr ⟨vars, there⟩))
  obtain ⟨restored, replayed, reads⟩ := restoreScalars_some distinct present
  refine ⟨restored, replayed, fun name key => ?_⟩
  have entry := (entryOf_sorted distinct name key).trans (congrArg _ (delta_scalar recorded name key))
  have unchanged : entryOf delta.sorted name key = none →
      restored.scalar name key = constructed.scalar name key := by
    intro absent
    rw [Model.scalar, reads, absent, ← copy.scalars]
    rfl
  cases new : loaded.scalar name key with
  | none =>
      rw [new] at entry
      rw [unchanged entry]
      cases old : constructed.scalar name key with
      | none => rfl
      | some value =>
          have before : entryOf (scalarState constructed) name key = some value.sorted := by
            rw [scalarState_entryOf, old, Option.map_some]
          obtain ⟨other, there⟩ := scalarDelta_keeps recorded before
          rw [scalarState_entryOf, new] at there
          cases there
  | some value =>
      obtain ⟨_, _, visible, _⟩ := Model.scalar_some new
      have replaced : entryOf delta.sorted name key = some value.sorted →
          restored.scalar name key = some value.sorted := by
        intro present
        rw [Model.scalar, reads, present]
        exact scalar_ofJson visible value.sorted
      rw [new, Option.map_some, Option.filter_some] at entry
      cases old : constructed.scalar name key with
      | none =>
          rw [old] at entry
          exact replaced (entry.trans (congrArg some (Json.sorted_sorted value)))
      | some plain =>
          rw [old, Option.any_some, Json.equal_sorted_right] at entry
          cases same : plain.equal value with
          | true =>
              rw [same] at entry
              rw [unchanged entry, old, reproduced, Option.map_some, Option.filter_some, if_pos same]
              rfl
          | false =>
              rw [same] at entry
              have recordedValue := replaced (entry.trans (congrArg some (Json.sorted_sorted value)))
              rw [recordedValue, reproduced, Option.map_some, Option.filter_some, same]
              rfl

/-- The adapter of the model allows the change of the attribute. -/
def Model.allows (model : Model F) (name key : String) : Bool :=
  (adapterFor model).allowsChange name key (model.tagAt name key)

/-- What the check lets pass: no visible change, a public attribute with a value tag, or what the adapter allows. -/
theorem checkSideEffects_ok
    (quiet : checkSideEffects (objectState constructed) (objectState loaded) loaded = .ok ()) (name key : String) :
    sameTag (constructed.tagAt name key) (loaded.tagAt name key) = true ∨
      (isPublic key = true ∧ isValueTag (loaded.tagAt name key) = true) ∨ loaded.allows name key = true := by
  simp only [checkSideEffects] at quiet
  split at quiet
  case h_2 => cases quiet
  case h_1 passed =>
    rw [List.findSome?_eq_none_iff] at passed
    by_cases named : name ∈ (objectState constructed).keys ++ (objectState loaded).keys
    · have here := passed name named
      rw [List.findSome?_eq_none_iff] at here
      by_cases inside : key ∈ (((objectState constructed).get? name).getD .empty).keys ++
          (((objectState loaded).get? name).getD .empty).keys
      · have visible := here key inside
        rw [objectState_tagAt, objectState_tagAt] at visible
        split at visible
        case isTrue same => exact .inl same
        case isFalse =>
          split at visible
          case isTrue value => exact .inr (.inl (Bool.and_eq_true_iff.mp value))
          case isFalse =>
            split at visible
            case isTrue allowed => exact .inr (.inr allowed)
            case isFalse => cases visible
      · rw [List.mem_append, not_or, ← OrderedDict.get?_eq_none_iff, ← OrderedDict.get?_eq_none_iff,
          objectState_tagAt, objectState_tagAt] at inside
        rw [inside.1, inside.2]
        exact .inl rfl
    · rw [List.mem_append, not_or, ← OrderedDict.get?_eq_none_iff, ← OrderedDict.get?_eq_none_iff] at named
      rw [← objectState_tagAt, ← objectState_tagAt, named.1, named.2]
      exact .inl rfl

/-- The attribute holds another value, whatever the order of its dicts and sets. -/
def Changed (before after : Option (Value F)) : Prop := before.map Value.sorted ≠ after.map Value.sorted

/-- No changed attribute passes for what it was. A scalar is not replaced by an equal one of another kind or sign. Any
other value gets a tag that is not equal to the old one and is not that of an object of a class called `value`, unless
the adapter allows the change. -/
structure Unmistaken (constructed loaded : Model F) : Prop where
  scalars : ∀ name key old new, constructed.scalar name key = some old → loaded.scalar name key = some new →
    old.canonical ≠ new.canonical → old.equal new = false
  others : ∀ name key, key ∉ registries → loaded.scalar name key = none →
    Changed (constructed.attributeAt name key) (loaded.attributeAt name key) →
      loaded.allows name key = true ∨
        (sameTag (constructed.tagAt name key) (loaded.tagAt name key) = false ∧
          ¬(isPublic key = true ∧ isValueTag (loaded.tagAt name key) = true))

/-- The replayed model has the scalars of the loaded one. -/
def Reproduces (fresh loaded : Model F) (delta : Json F) : Prop :=
  ∃ restored, restoreScalars fresh delta.canonical = some restored ∧ ∀ name key,
    (restored.scalar name key).map Json.canonical = (loaded.scalar name key).map Json.canonical

/-- Every changed attribute is a recorded scalar or a change that the adapter allows. -/
def Accounted (constructed loaded : Model F) : Prop :=
  ∀ name key, key ∉ registries → Changed (constructed.attributeAt name key) (loaded.attributeAt name key) →
    (loaded.scalar name key).isSome ∨ loaded.allows name key = true

theorem reproduces_iff (copy : FreshCopy constructed fresh)
    (tree : ∀ name, name ∈ loaded.modules.keys → name ∈ constructed.modules.keys)
    (recorded : scalarDelta (scalarState constructed) (scalarState loaded) = .ok delta) :
    Reproduces fresh loaded delta ↔
      ∀ name key old new, constructed.scalar name key = some old → loaded.scalar name key = some new →
        old.canonical ≠ new.canonical → old.equal new = false := by
  obtain ⟨restored, replayed, reads⟩ := restored_scalars copy tree recorded
  constructor
  · rintro ⟨other, again, same⟩ name key old new before after different
    cases Option.some.inj (replayed.symm.trans again)
    by_contra alike
    rw [Bool.not_eq_false] at alike
    have here := same name key
    rw [reads, before, after, reproduced, Option.map_some, Option.filter_some, if_pos alike] at here
    exact different (Option.some.inj here)
  · intro told
    refine ⟨restored, replayed, fun name key => ?_⟩
    rw [reads]
    cases after : loaded.scalar name key with
    | none => rfl
    | some new =>
        rw [reproduced, Option.map_some, Option.map_some, Option.map_some]
        apply congrArg
        cases before : constructed.scalar name key with
        | none => exact Json.canonical_sorted new
        | some old =>
            rw [Option.filter_some]
            split
            case isTrue alike =>
              by_contra different
              rw [told name key old new before after different] at alike
              cases alike
            case isFalse => exact Json.canonical_sorted new

theorem accounted_iff (quiet : checkSideEffects (objectState constructed) (objectState loaded) loaded = .ok ()) :
    Accounted constructed loaded ↔
      ∀ name key, key ∉ registries → loaded.scalar name key = none →
        Changed (constructed.attributeAt name key) (loaded.attributeAt name key) →
          loaded.allows name key = true ∨
            (sameTag (constructed.tagAt name key) (loaded.tagAt name key) = false ∧
              ¬(isPublic key = true ∧ isValueTag (loaded.tagAt name key) = true)) := by
  constructor
  · intro accounted name key ordinary gone changed
    rcases accounted name key ordinary changed with scalar | allowed
    · rw [gone] at scalar
      cases scalar
    · exact .inl allowed
  · intro told name key ordinary changed
    cases after : loaded.scalar name key with
    | some new => exact .inl rfl
    | none =>
        rcases told name key ordinary after changed with allowed | ⟨visible, hidden⟩
        · exact .inr allowed
        · rcases checkSideEffects_ok quiet name key with same | value | allowed
          · rw [visible] at same
            cases same
          · exact absurd value hidden
          · exact .inr allowed

/-- A module tree of one module with one attribute. -/
def flagged (value : Value ℚ) : Model ℚ where
  typeName := "Qwen3ForCausalLM"
  typeModule := "vllm.model_executor.models.qwen3"
  modules := OrderedDict.empty.set "" (OrderedDict.empty.set "flags" value)

theorem flagged_attributeAt {value found : Value ℚ} {name key : String}
    (present : (flagged value).attributeAt name key = some found) : name = "" ∧ key = "flags" ∧ found = value := by
  obtain ⟨vars, here, there⟩ := Option.bind_eq_some_iff.mp present
  rcases OrderedDict.get?_set_cases here with ⟨atName, rfl⟩ | ⟨_, none⟩
  · rcases OrderedDict.get?_set_cases there with ⟨atKey, same⟩ | ⟨_, none⟩
    · exact ⟨atName, atKey, same⟩
    · cases none
  · cases none

end Replay

end DgxSpark.Nvme.Loader
