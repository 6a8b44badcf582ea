import Mathlib.Tactic

namespace DgxSpark

/-- A cell of a store whose writes become durable later: what a reader finds, what a sync made
durable, and everything that was put there since. -/
structure Cell (Content : Type) where
  visible : Option Content
  durable : Option Content
  unsynced : List (Option Content)

namespace Cell

variable {Content : Type}

def blank : Cell Content := ⟨none, none, []⟩

def put (cell : Cell Content) (content : Option Content) : Cell Content :=
  { cell with visible := content, unsynced := content :: cell.unsynced }

def sync (cell : Cell Content) : Cell Content := ⟨cell.visible, cell.visible, []⟩

/-- A power loss leaves the durable content or something that was put there since. -/
def powerLoss (cell : Cell Content) (choice : Option Nat) : Cell Content :=
  let left := (choice.bind fun index => cell.unsynced[index]?).getD cell.durable
  ⟨left, left, []⟩

/-- The content is in the cell or may come back to it. -/
def MayHold (cell : Cell Content) (content : Content) : Prop :=
  cell.visible = some content ∨ cell.durable = some content ∨ some content ∈ cell.unsynced

variable {cell : Cell Content} {content : Content}

theorem not_mayHold_blank : ¬(blank : Cell Content).MayHold content := by
  rintro (visible | durable | unsynced)
  · cases visible
  · cases durable
  · cases unsynced

theorem MayHold.put {new : Option Content} (held : (cell.put new).MayHold content) :
    cell.MayHold content ∨ new = some content := by
  rcases held with visible | durable | unsynced
  · exact .inr visible
  · exact .inl (.inr (.inl durable))
  · rcases List.mem_cons.mp unsynced with here | older
    · exact .inr here.symm
    · exact .inl (.inr (.inr older))

theorem MayHold.sync (held : cell.sync.MayHold content) : cell.MayHold content := by
  rcases held with visible | durable | unsynced
  · exact .inl visible
  · exact .inl durable
  · exact absurd unsynced List.not_mem_nil

theorem MayHold.powerLoss {choice : Option Nat} (held : (cell.powerLoss choice).MayHold content) :
    cell.MayHold content := by
  have left : (choice.bind fun index => cell.unsynced[index]?).getD cell.durable = some content := by
    rcases held with visible | durable | unsynced
    · exact visible
    · exact durable
    · exact absurd unsynced List.not_mem_nil
  cases kept : choice.bind fun index => cell.unsynced[index]? with
  | none =>
      rw [kept] at left
      exact .inr (.inl left)
  | some put =>
      rw [kept] at left
      obtain ⟨index, -, found⟩ := Option.bind_eq_some_iff.mp kept
      exact .inr (.inr (left ▸ List.mem_of_getElem? found))

end Cell

end DgxSpark
