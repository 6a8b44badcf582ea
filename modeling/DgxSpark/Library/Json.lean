/-
This file gives JSON values. The numbers that are not whole are of any float type.
-/

namespace DgxSpark

inductive Json (F : Type) where
  | null
  | bool (value : Bool)
  | int (value : Int)
  | float (value : F)
  | str (value : String)
  | list (items : List (Json F))
  | object (fields : List (String × Json F))

namespace Json

variable {F : Type}

def fields? : Json F → Option (List (String × Json F))
  | .object fields => some fields
  | _ => none

def items? : Json F → Option (List (Json F))
  | .list items => some items
  | _ => none

def int? : Json F → Option Int
  | .int value => some value
  | _ => none

/-- What an object has at a key. -/
def field? (value : Json F) (key : String) : Option (Json F) := value.fields?.bind (·.lookup key)

end Json

end DgxSpark
