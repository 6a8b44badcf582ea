import Mathlib.Data.List.Sort
import Mathlib.Data.String.Basic
import Mathlib.Data.Rat.Defs
import DgxSpark.Library.Json
import DgxSpark.Library.OrderedDict

/-
This file writes JSON values as texts and reads them back. A text is the list of its lexical tokens, and the token
of a number is the number.
-/

namespace DgxSpark

inductive Token (F : Type) where
  | null
  | bool (value : Bool)
  | int (value : Int)
  | float (value : F)
  | str (value : String)
  | comma
  | colon
  | openList
  | closeList
  | openObject
  | closeObject
deriving DecidableEq

/-- Each finite float is a number. Two floats may be the same number, as the two zeros are. -/
class FiniteFloat (F : Type) where
  value : F → ℚ

namespace Json

variable {F : Type}

/-- Induction on a value may use what holds for the items and the fields. -/
@[elab_as_elim] theorem induct {motive : Json F → Prop} (null : motive .null) (bool : ∀ value, motive (.bool value))
    (int : ∀ value, motive (.int value)) (float : ∀ value, motive (.float value)) (str : ∀ value, motive (.str value))
    (list : ∀ items, (∀ item ∈ items, motive item) → motive (.list items))
    (object : ∀ fields, (∀ field ∈ fields, motive field.2) → motive (.object fields)) (value : Json F) :
    motive value :=
  @Json.rec F motive (fun items => ∀ item ∈ items, motive item) (fun fields => ∀ field ∈ fields, motive field.2)
    (fun field => motive field.2) null bool int float str list object
    (fun _ inside => absurd inside List.not_mem_nil)
    (fun _ _ head tail item inside => (List.mem_cons.mp inside).elim (fun same => same ▸ head) (tail item))
    (fun _ inside => absurd inside List.not_mem_nil)
    (fun _ _ head tail field inside => (List.mem_cons.mp inside).elim (fun same => same ▸ head) (tail field))
    (fun _ _ atValue => atValue) value

section Sorted

def sortKeys {Value : Type} (fields : List (String × Value)) : List (String × Value) :=
  fields.insertionSort fun first second => first.1 ≤ second.1

theorem sortKeys_perm {Value : Type} (fields : List (String × Value)) : (sortKeys fields).Perm fields :=
  List.perm_insertionSort _ fields

theorem sortKeys_sorted {Value : Type} (fields : List (String × Value)) :
    (sortKeys fields).Pairwise fun first second => first.1 ≤ second.1 := by
  have : Std.Total fun first second : String × Value => first.1 ≤ second.1 :=
    ⟨fun first second => le_total first.1 second.1⟩
  have : IsTrans (String × Value) fun first second => first.1 ≤ second.1 := ⟨fun _ _ _ => le_trans⟩
  exact List.pairwise_insertionSort _ fields

theorem sortKeys_sortKeys {Value : Type} (fields : List (String × Value)) :
    sortKeys (sortKeys fields) = sortKeys fields :=
  (sortKeys_sorted fields).insertionSort_eq

/-- Rewriting the values and sorting the keys may change places. -/
theorem map_sortKeys {Value Other : Type} (rewrite : Value → Other) (fields : List (String × Value)) :
    (sortKeys fields).map (fun field => (field.1, rewrite field.2)) =
      sortKeys (fields.map fun field => (field.1, rewrite field.2)) :=
  List.map_insertionSort _ _ _ _ fun _ _ _ _ => Iff.rfl

theorem lookup_sortKeys {Value : Type} {fields : List (String × Value)} (nodup : (fields.map Prod.fst).Nodup)
    (key : String) : (sortKeys fields).lookup key = fields.lookup key := by
  have perm := sortKeys_perm fields
  have sortedNodup : ((sortKeys fields).map Prod.fst).Nodup := (perm.map Prod.fst).nodup_iff.mpr nodup
  apply Option.ext
  intro found
  show OrderedDict.get? ⟨_, sortedNodup⟩ key = some found ↔ OrderedDict.get? ⟨_, nodup⟩ key = some found
  rw [OrderedDict.get?_eq_some_iff, OrderedDict.get?_eq_some_iff]
  exact perm.mem_iff

theorem lookup_mapFields {Value Other : Type} (rewrite : Value → Other) (fields : List (String × Value))
    (key : String) :
    (fields.map fun field => (field.1, rewrite field.2)).lookup key = (fields.lookup key).map rewrite := by
  induction fields with
  | nil => rfl
  | cons field rest ih =>
      rw [List.map_cons, List.lookup_cons, List.lookup_cons, ih]
      cases key == field.1 <;> rfl

mutual

/-- The keys of every object in their order. -/
def sorted : Json F → Json F
  | .list items => .list (sortedItems items)
  | .object fields => .object (sortKeys (sortedFields fields))
  | value => value

def sortedItems : List (Json F) → List (Json F)
  | [] => []
  | item :: rest => item.sorted :: sortedItems rest

def sortedFields : List (String × Json F) → List (String × Json F)
  | [] => []
  | (key, value) :: rest => (key, value.sorted) :: sortedFields rest

end

theorem sortedItems_eq (items : List (Json F)) : sortedItems items = items.map sorted := by
  induction items with
  | nil => rfl
  | cons item rest ih => rw [sortedItems, ih, List.map_cons]

theorem sortedFields_eq (fields : List (String × Json F)) :
    sortedFields fields = fields.map fun field => (field.1, field.2.sorted) := by
  induction fields with
  | nil => rfl
  | cons field rest ih => rw [sortedFields, ih, List.map_cons]

theorem mapFields_keys {Value Other : Type} (rewrite : Value → Other) (fields : List (String × Value)) :
    (fields.map fun field => (field.1, rewrite field.2)).map Prod.fst = fields.map Prod.fst := by
  rw [List.map_map]
  rfl

theorem sortedFields_keys (fields : List (String × Json F)) :
    (sortedFields fields).map Prod.fst = fields.map Prod.fst := by
  rw [sortedFields_eq, mapFields_keys]

/-- Sorting the keys does not change what an object has at a key. -/
theorem lookup_sorted {fields : List (String × Json F)} (nodup : (fields.map Prod.fst).Nodup) (key : String) :
    (sortKeys (sortedFields fields)).lookup key = (fields.lookup key).map sorted := by
  rw [lookup_sortKeys (by rw [sortedFields_keys]; exact nodup), sortedFields_eq, lookup_mapFields]

theorem sorted_sorted (value : Json F) : value.sorted.sorted = value.sorted := by
  induction value using induct with
  | null => rfl
  | bool => rfl
  | int => rfl
  | float => rfl
  | str => rfl
  | list items ih =>
      rw [sorted, sorted, sortedItems_eq, sortedItems_eq, List.map_map]
      exact congrArg list (List.map_congr_left ih)
  | object fields ih =>
      rw [sorted, sorted, sortedFields_eq, sortedFields_eq, map_sortKeys, List.map_map]
      have same : (fields.map ((fun field => (field.1, field.2.sorted)) ∘ fun field => (field.1, field.2.sorted))) =
          fields.map fun field => (field.1, field.2.sorted) :=
        List.map_congr_left fun field inside => Prod.ext rfl (ih field inside)
      rw [same, sortKeys_sortKeys]

end Sorted

section Text

mutual

def tokens : Json F → List (Token F)
  | .null => [.null]
  | .bool value => [.bool value]
  | .int value => [.int value]
  | .float value => [.float value]
  | .str value => [.str value]
  | .list [] => [.openList, .closeList]
  | .list (item :: rest) => .openList :: (item.tokens ++ itemTokens rest)
  | .object [] => [.openObject, .closeObject]
  | .object ((key, value) :: rest) => .openObject :: .str key :: .colon :: (value.tokens ++ fieldTokens rest)

/-- The items after the first, and the end of the list. -/
def itemTokens : List (Json F) → List (Token F)
  | [] => [.closeList]
  | item :: rest => .comma :: (item.tokens ++ itemTokens rest)

def fieldTokens : List (String × Json F) → List (Token F)
  | [] => [.closeObject]
  | (key, value) :: rest => .comma :: .str key :: .colon :: (value.tokens ++ fieldTokens rest)

end

mutual

/-- Reads one value and gives the tokens after it. -/
def parse : Nat → List (Token F) → Option (Json F × List (Token F))
  | 0, _ => none
  | _ + 1, .null :: rest => some (.null, rest)
  | _ + 1, .bool value :: rest => some (.bool value, rest)
  | _ + 1, .int value :: rest => some (.int value, rest)
  | _ + 1, .float value :: rest => some (.float value, rest)
  | _ + 1, .str value :: rest => some (.str value, rest)
  | _ + 1, .openList :: .closeList :: rest => some (.list [], rest)
  | fuel + 1, .openList :: rest =>
      (parse fuel rest).bind fun (item, rest) =>
        (parseItems fuel rest).map fun (items, rest) => (.list (item :: items), rest)
  | _ + 1, .openObject :: .closeObject :: rest => some (.object [], rest)
  | fuel + 1, .openObject :: .str key :: .colon :: rest =>
      (parse fuel rest).bind fun (value, rest) =>
        (parseFields fuel rest).map fun (fields, rest) => (.object ((key, value) :: fields), rest)
  | _ + 1, _ => none

def parseItems : Nat → List (Token F) → Option (List (Json F) × List (Token F))
  | 0, _ => none
  | _ + 1, .closeList :: rest => some ([], rest)
  | fuel + 1, .comma :: rest =>
      (parse fuel rest).bind fun (item, rest) =>
        (parseItems fuel rest).map fun (items, rest) => (item :: items, rest)
  | _ + 1, _ => none

def parseFields : Nat → List (Token F) → Option (List (String × Json F) × List (Token F))
  | 0, _ => none
  | _ + 1, .closeObject :: rest => some ([], rest)
  | fuel + 1, .comma :: .str key :: .colon :: rest =>
      (parse fuel rest).bind fun (value, rest) =>
        (parseFields fuel rest).map fun (fields, rest) => ((key, value) :: fields, rest)
  | _ + 1, _ => none

end

/-- Reads a text that is one value. -/
def loads (text : List (Token F)) : Option (Json F) :=
  match parse (text.length + 1) text with
  | some (value, []) => some value
  | _ => none

theorem tokens_length (value : Json F) : 0 < value.tokens.length := by
  cases value with
  | list items => cases items <;> simp [tokens]
  | object fields => cases fields <;> simp [tokens]
  | _ => simp [tokens]

/-- No value begins with the end of a list. -/
theorem tokens_ne_closeList (value : Json F) (rest after : List (Token F)) :
    value.tokens ++ rest ≠ .closeList :: after := by
  cases value with
  | list items => cases items <;> simp [tokens]
  | object fields => cases fields <;> simp [tokens]
  | _ => simp [tokens]

theorem parse_openList (fuel : Nat) (rest : List (Token F)) (filled : ∀ after, rest ≠ .closeList :: after) :
    parse (fuel + 1) (.openList :: rest) =
      (parse fuel rest).bind fun (item, rest) =>
        (parseItems fuel rest).map fun (items, rest) => (.list (item :: items), rest) := by
  rw [parse]
  exact filled

/-- With enough fuel the parser inverts the writing of values, of items and of fields. -/
theorem parse_inverts (fuel : Nat) :
    (∀ (value : Json F) rest, value.tokens.length ≤ fuel → parse fuel (value.tokens ++ rest) = some (value, rest)) ∧
    (∀ (items : List (Json F)) rest, (itemTokens items).length ≤ fuel →
      parseItems fuel (itemTokens items ++ rest) = some (items, rest)) ∧
    (∀ (fields : List (String × Json F)) rest, (fieldTokens fields).length ≤ fuel →
      parseFields fuel (fieldTokens fields ++ rest) = some (fields, rest)) := by
  induction fuel with
  | zero =>
      refine ⟨fun value rest enough => ?_, fun items rest enough => ?_, fun fields rest enough => ?_⟩
      · have := tokens_length value
        omega
      · cases items <;> simp [itemTokens] at enough
      · cases fields <;> simp [fieldTokens] at enough
  | succ fuel ih =>
      obtain ⟨values, itemLists, fieldLists⟩ := ih
      refine ⟨fun value rest enough => ?_, fun items rest enough => ?_, fun fields rest enough => ?_⟩
      · cases value with
        | null => rfl
        | bool => rfl
        | int => rfl
        | float => rfl
        | str => rfl
        | list items =>
            cases items with
            | nil => rfl
            | cons item more =>
                simp only [tokens, List.length_cons, List.length_append] at enough
                rw [tokens, List.cons_append, List.append_assoc, parse_openList _ _ (tokens_ne_closeList item _),
                  values item _ (by omega)]
                simp only [Option.bind_some, itemLists more rest (by omega), Option.map_some]
        | object fields =>
            cases fields with
            | nil => rfl
            | cons field more =>
                obtain ⟨key, value⟩ := field
                simp only [tokens, List.length_cons, List.length_append] at enough
                simp only [tokens, List.cons_append, List.append_assoc, parse]
                rw [values value _ (by omega), Option.bind_some, fieldLists more rest (by omega), Option.map_some]
      · cases items with
        | nil => rfl
        | cons item more =>
            simp only [itemTokens, List.length_cons, List.length_append] at enough
            simp only [itemTokens, List.cons_append, List.append_assoc, parseItems]
            rw [values item _ (by omega), Option.bind_some, itemLists more rest (by omega), Option.map_some]
      · cases fields with
        | nil => rfl
        | cons field more =>
            obtain ⟨key, value⟩ := field
            simp only [fieldTokens, List.length_cons, List.length_append] at enough
            simp only [fieldTokens, List.cons_append, List.append_assoc, parseFields]
            rw [values value _ (by omega), Option.bind_some, fieldLists more rest (by omega), Option.map_some]

theorem loads_tokens (value : Json F) : loads value.tokens = some value := by
  have read := (parse_inverts (value.tokens.length + 1)).1 value [] (Nat.le_succ _)
  rw [List.append_nil] at read
  rw [loads, read]

theorem tokens_injective : Function.Injective (tokens : Json F → List (Token F)) := by
  intro first second same
  have read := loads_tokens first
  rw [same, loads_tokens] at read
  exact (Option.some.inj read).symm

/-- The text with sorted keys. -/
def canonical (value : Json F) : List (Token F) := value.sorted.tokens

theorem loads_canonical (value : Json F) : loads value.canonical = some value.sorted := loads_tokens value.sorted

theorem canonical_eq_iff {first second : Json F} :
    first.canonical = second.canonical ↔ first.sorted = second.sorted :=
  tokens_injective.eq_iff

@[simp] theorem canonical_sorted (value : Json F) : value.sorted.canonical = value.canonical := by
  rw [canonical, sorted_sorted, canonical]

end Text

section Equality

variable [FiniteFloat F]

mutual

/-- The numbers of a value without their kinds. -/
def numeral : Json F → Json ℚ
  | .null => .null
  | .bool value => .float (if value then 1 else 0)
  | .int value => .float value
  | .float value => .float (FiniteFloat.value value)
  | .str value => .str value
  | .list items => .list (itemNumerals items)
  | .object fields => .object (fieldNumerals fields)

def itemNumerals : List (Json F) → List (Json ℚ)
  | [] => []
  | item :: rest => item.numeral :: itemNumerals rest

def fieldNumerals : List (String × Json F) → List (String × Json ℚ)
  | [] => []
  | (key, value) :: rest => (key, value.numeral) :: fieldNumerals rest

end

/-- Python equality: numbers are equal by value whatever their kinds, and dicts whatever the order of their keys. -/
def equal (first second : Json F) : Bool := first.numeral.canonical = second.numeral.canonical

theorem itemNumerals_eq (items : List (Json F)) : itemNumerals items = items.map numeral := by
  induction items with
  | nil => rfl
  | cons item rest ih => rw [itemNumerals, ih, List.map_cons]

theorem fieldNumerals_eq (fields : List (String × Json F)) :
    fieldNumerals fields = fields.map fun field => (field.1, field.2.numeral) := by
  induction fields with
  | nil => rfl
  | cons field rest ih => rw [fieldNumerals, ih, List.map_cons]

theorem numeral_sorted (value : Json F) : value.sorted.numeral = value.numeral.sorted := by
  induction value using induct with
  | null => rfl
  | bool => rfl
  | int => rfl
  | float => rfl
  | str => rfl
  | list items ih =>
      rw [sorted, numeral, numeral, sorted, sortedItems_eq, sortedItems_eq, itemNumerals_eq, itemNumerals_eq,
        List.map_map, List.map_map]
      exact congrArg list (List.map_congr_left ih)
  | object fields ih =>
      rw [sorted, numeral, numeral, sorted, sortedFields_eq, sortedFields_eq, fieldNumerals_eq, fieldNumerals_eq,
        map_sortKeys, List.map_map, List.map_map]
      exact congrArg (object ∘ sortKeys) (List.map_congr_left fun field inside => Prod.ext rfl (ih field inside))

@[simp] theorem equal_sorted (first second : Json F) : first.sorted.equal second.sorted = first.equal second := by
  rw [equal, equal, numeral_sorted, numeral_sorted, canonical_sorted, canonical_sorted]

@[simp] theorem equal_sorted_right (first second : Json F) : first.equal second.sorted = first.equal second := by
  rw [← equal_sorted, sorted_sorted, equal_sorted]

@[simp] theorem equal_sorted_left (first second : Json F) : first.sorted.equal second = first.equal second := by
  rw [← equal_sorted_right, equal_sorted]

/-- Values with one text are equal. -/
theorem equal_of_canonical {first second : Json F} (same : first.canonical = second.canonical) :
    first.equal second = true := by
  rw [← equal_sorted, canonical_eq_iff.mp same, equal, decide_eq_true_iff]

instance : FiniteFloat ℚ where
  value x := x

example : (bool true : Json ℚ).equal (int 1) = true := by decide +kernel

end Equality

end Json

end DgxSpark
