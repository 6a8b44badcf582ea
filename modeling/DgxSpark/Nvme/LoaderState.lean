import DgxSpark.Library.JsonText

/-
This file models the two snapshots that the loader takes of a model, the checks it makes on them and the restore of
the recorded scalars. The floats are finite, and the keys of dicts are strings.
-/

namespace DgxSpark.Nvme.Loader

/-- What an attribute holds. A sequence is of a list or a tuple type, and a dict of a dict type, under the name of the
type. A set shows the `repr` of each member. Tensors and other objects have an identity; `id` gives the address, which
another object may have had before. -/
inductive Value (F : Type) where
  | none
  | bool (value : Bool)
  | int (value : Int)
  | float (value : F)
  | str (value : String)
  | sequence (type : String) (items : List (Value F))
  | set (members : List (String × Nat))
  | dict (type : String) (fields : List (String × Value F))
  | tensor (identity address : Nat) (shape : List Nat) (dtype : String)
  | object (type : String) (identity address : Nat)

abbrev Attributes (F : Type) := OrderedDict String (Value F)

/-- The class of the model, and `vars` of each of its named modules. -/
structure Model (F : Type) where
  typeName : String
  typeModule : String
  modules : OrderedDict String (Attributes F)

variable {F : Type}

namespace Value

mutual

def simple : Value F → Bool
  | .none | .bool _ | .int _ | .float _ | .str _ => true
  | .sequence type items => type == "list" && simpleItems items
  | .dict type fields => type == "dict" && simpleFields fields
  | .set _ | .tensor .. | .object .. => false

def simpleItems : List (Value F) → Bool
  | [] => true
  | item :: rest => item.simple && simpleItems rest

def simpleFields : List (String × Value F) → Bool
  | [] => true
  | (_, value) :: rest => value.simple && simpleFields rest

end

mutual

/-- What `json.dumps` writes of a simple value. -/
def json : Value F → Json F
  | .bool value => .bool value
  | .int value => .int value
  | .float value => .float value
  | .str value => .str value
  | .sequence _ items => .list (itemsJson items)
  | .dict _ fields => .object (fieldsJson fields)
  | .none | .set _ | .tensor .. | .object .. => .null

def itemsJson : List (Value F) → List (Json F)
  | [] => []
  | item :: rest => item.json :: itemsJson rest

def fieldsJson : List (String × Value F) → List (String × Json F)
  | [] => []
  | (key, value) :: rest => (key, value.json) :: fieldsJson rest

end

mutual

/-- What `json.loads` makes of a text. -/
def ofJson : Json F → Value F
  | .null => .none
  | .bool value => .bool value
  | .int value => .int value
  | .float value => .float value
  | .str value => .str value
  | .list items => .sequence "list" (ofItems items)
  | .object fields => .dict "dict" (ofFields fields)

def ofItems : List (Json F) → List (Value F)
  | [] => []
  | item :: rest => ofJson item :: ofItems rest

def ofFields : List (String × Json F) → List (String × Value F)
  | [] => []
  | (key, value) :: rest => (key, ofJson value) :: ofFields rest

end

end Value

/-- `json.loads(canonical(value))`, which fails on no value. -/
def reload (value : Json F) : Json F := (Json.loads value.canonical).getD .null

namespace Value

mutual

/-- A pair of a key and a tag is the object of that one field. -/
def tag : Value F → Json F
  | .none => .list [.str "value", reload .null]
  | .bool value => .list [.str "value", reload (.bool value)]
  | .int value => .list [.str "value", reload (.int value)]
  | .float value => .list [.str "value", reload (.float value)]
  | .str value => .list [.str "value", reload (.str value)]
  | .sequence type items =>
      if (sequence type items).simple then .list [.str "value", reload (sequence type items).json]
      else .list [.str type, .list (itemTags items)]
  | .set members => .list [.str "set", .list (((members.map Prod.fst).insertionSort (· ≤ ·)).map .str)]
  | .dict type fields =>
      if (dict type fields).simple then .list [.str "value", reload (dict type fields).json]
      else .list [.str "dict", .list ((Json.sortKeys (fieldTags fields)).map fun field => .object [field])]
  | .tensor _ address shape dtype =>
      .list [.str "tensor", .int address, .list (shape.map fun size : Nat => .int (size : Int)), .str dtype]
  | .object type _ address => .list [.str type, .int address]

def itemTags : List (Value F) → List (Json F)
  | [] => []
  | item :: rest => item.tag :: itemTags rest

def fieldTags : List (String × Value F) → List (String × Json F)
  | [] => []
  | (key, value) :: rest => (key, value.tag) :: fieldTags rest

end

mutual

/-- The same value with its dicts and sets in the order of their keys and members. -/
def sorted : Value F → Value F
  | .sequence type items => .sequence type (sortedItems items)
  | .set members => .set (members.insertionSort fun first second =>
      first.1 < second.1 ∨ first.1 = second.1 ∧ first.2 ≤ second.2)
  | .dict type fields => .dict type (Json.sortKeys (sortedFields fields))
  | value => value

def sortedItems : List (Value F) → List (Value F)
  | [] => []
  | item :: rest => item.sorted :: sortedItems rest

def sortedFields : List (String × Value F) → List (String × Value F)
  | [] => []
  | (key, value) :: rest => (key, value.sorted) :: sortedFields rest

end

end Value

section Checks

/-- `not key.startswith("_")`. -/
def isPublic (key : String) : Bool := key.toList.head? != some '_'

def registries : List String := ["_parameters", "_buffers", "_modules"]

/-- The value of a public simple attribute as JSON. -/
def scalarOf (key : String) (value : Value F) : Option (Json F) :=
  if isPublic key && value.simple then some value.json else none

def scalarState (model : Model F) : Json F :=
  reload (.object ((model.modules.mapValues fun vars => Json.object (vars.filterMap scalarOf).entries).entries))

/-- The items of a dict, and what it has at a key. -/
def items (value : Json F) : List (String × Json F) := value.fields?.getD []

variable [FiniteFloat F]

/-- `name not in before or k not in before[name] or before[name][k] != v`. -/
def differs (before : Json F) (name : String) (field : String × Json F) : Bool :=
  match (before.field? name).bind (·.field? field.1) with
  | none => true
  | some old => !old.equal field.2

def changes (before : Json F) (name : String) (attrs : Json F) : Option (Json F) :=
  let changed := (items attrs).filter (differs before name)
  if changed.isEmpty then none else some (.object changed)

def scalarDelta (before after : Json F) : Except String (Json F) :=
  let removed := (items before).any fun (name, attrs) =>
    match after.field? name with
    | none => true
    | some found => (items attrs).any fun (key, _) => (found.field? key).isNone
  if removed then
    .error "native load removed module/attributes; needs adapter"
  else
    .ok (.object ((items after).filterMap fun entry =>
      (changes before entry.1 entry.2).map fun changed => (entry.1, changed)))

def objectState (model : Model F) : OrderedDict String (OrderedDict String (Json F)) :=
  model.modules.mapValues fun vars =>
    vars.filterMap fun key value => if key ∈ registries then none else some value.tag

inductive Adapter where
  | nativePreKernel
  | deepseek
  | dflash

def derivedAttributes : List String :=
  ["_hidden_norm_weight", "_fused_kv_weight", "_fused_kv_bias", "_k_norm_weights", "_rope_head_size",
    "_rope_cos_sin_cache", "_rope_is_neox", "_num_attn_layers", "_kv_size", "_head_dim", "_num_kv_heads",
    "_rms_norm_eps", "_attn_layers", "_fused_hidden_norm_weight", "_context_kv_weight", "_context_kv_bias"]

def Adapter.allowsChange (adapter : Adapter) (moduleName key : String) (value : Option (Json F)) : Bool :=
  match adapter with
  | .nativePreKernel => false
  | .deepseek =>
      key == "_pending_indexer_wk_fp8" && value.any (·.equal (.list [.str "value", .object []]))
  | .dflash => moduleName == "model" && derivedAttributes.contains key

/-- The adapters by the names of their models. -/
def adapters : List (String × Adapter) :=
  ["LlamaForCausalLM", "GPT2LMHeadModel", "Qwen2ForCausalLM", "Qwen3ForCausalLM"].map (·, .nativePreKernel)
    ++ ["DeepseekV2ForCausalLM", "DeepseekV3ForCausalLM", "DeepseekV32ForCausalLM", "GlmMoeDsaForCausalLM"].map
      (·, .deepseek)
    ++ ["DFlashQwen3ForCausalLM", "DFlash2Qwen3ForCausalLM"].map (·, .dflash)

/-- `adapter_for(model, required=False)`. -/
def adapterFor (model : Model F) : Adapter :=
  match adapters.lookup model.typeName with
  | some adapter => if "vllm.".toList <+: model.typeModule.toList then adapter else .nativePreKernel
  | none => .nativePreKernel

/-- `b and b[0] == "value"`. -/
def isValueTag : Option (Json F) → Bool
  | some (.list (first :: _)) => first.equal (.str "value")
  | _ => false

/-- Python equality of what two dicts have at a key. -/
def sameTag : Option (Json F) → Option (Json F) → Bool
  | none, none => true
  | some first, some second => first.equal second
  | _, _ => false

/-- The set of keys is visited in some order, which decides the attribute that an error names. -/
def checkSideEffects (before after : OrderedDict String (OrderedDict String (Json F))) (model : Model F) :
    Except String Unit :=
  let adapter := adapterFor model
  let bad := (before.keys ++ after.keys).findSome? fun name =>
    let olds := (before.get? name).getD .empty
    let news := (after.get? name).getD .empty
    (olds.keys ++ news.keys).findSome? fun key =>
      if sameTag (olds.get? key) (news.get? key) then none
      else if isPublic key && isValueTag (news.get? key) then none
      else if adapter.allowsChange name key (news.get? key) then none
      else some (name, key)
  match bad with
  | none => .ok ()
  | some (name, key) => .error s!"load_weights changed {name}.{key}; prepared adapter required"

end Checks

section Restore

/-- The inner loop: `setattr` of every scalar of one module. -/
def setattrs (vars : Attributes F) (attrs : Json F) : Attributes F := vars.update (Value.ofFields (items attrs))

def restoreModule (modules : OrderedDict String (Attributes F)) (entry : String × Json F) :
    Option (OrderedDict String (Attributes F)) :=
  (modules.get? entry.1).map fun vars => modules.set entry.1 (setattrs vars entry.2)

/-- The restore loop of `_load` over the scalar delta that the manifest has. -/
def restoreScalars (model : Model F) (text : List (Token F)) : Option (Model F) :=
  (Json.loads text).bind fun delta =>
    ((items delta).foldlM restoreModule model.modules).map fun modules => { model with modules }

end Restore

end DgxSpark.Nvme.Loader
