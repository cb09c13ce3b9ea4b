import RelEngine.Error
import RelEngine.RowStore

/-!
Readers of rows as records of steps over a state.

A step that fails may have moved already. The state it reached is kept, so a reader can go on after
an error from where it stands.
-/
namespace RelEngine

/-- A step on a state that may fail. Failure does not undo what was done to the state. -/
abbrev Move (σ α : Type) := ExceptT Error (StateM σ) α

namespace Move

variable {σ τ α : Type}

/-- The result of a step together with the state it leaves. -/
def runFrom (m : Move σ α) (s : σ) : Checked α × σ := m.run s

/-- A step on a part of a larger state. -/
def within (get : σ → τ) (put : τ → σ → σ) (m : Move τ α) : Move σ α :=
  ExceptT.mk fun s =>
    let (result, t) := m.run (get s)
    (result, put t s)

end Move

/-- How rows are read. `read` shows a field of the current row; reading it never moves. -/
structure Scan (σ : Type) where
  start : σ
  /-- No more than this many rows follow, whatever the state. -/
  rowBound : Stores → Nat
  has : String → Bool
  read : Stores → σ → String → Checked Value
  rewind : Stores → Move σ Unit
  /-- Goes to the next row. The answer tells whether there was one. -/
  next : Stores → Move σ Bool

/-- Moves on until a row is accepted, over at most `fuel` rows. -/
def seek {σ : Type} (next : Move σ Bool) (accepts : σ → Checked Bool) : (fuel : Nat) → Move σ Bool
  | 0 => return false
  | fuel + 1 => do
    if ← next then
      if ← accepts (← get) then return true
      seek next accepts fuel
    else return false

/-- A condition on a row, given how its fields are read. -/
abbrev Condition := Stores → (String → Checked Value) → Checked Bool

end RelEngine
