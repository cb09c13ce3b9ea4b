import RelEngine.Bytes
import RelEngine.Error
import RelEngine.Text.Utf8

/-!
Reading a file from its start. No read goes past the end; an error tells the file and how many bytes
had been read before.
-/
namespace RelEngine

/-- The unread rest of a file. -/
structure Reader where
  file : String
  position : Nat
  rest : Bytes

/-- A read that may fail. -/
abbrev Read (α : Type) := StateT Reader (Except Error) α

namespace Read

def corrupt {α : Type} (fault : DumpFault) : Read α := throw (.corruptDump fault)

def take (n : Nat) : Read Bytes := do
  let r ← get
  if r.rest.length < n then corrupt (.unexpectedEnd r.file r.position)
  else
    set { r with position := r.position + n, rest := r.rest.drop n }
    return r.rest.take n

def number (count : Nat) : Read Nat := return Bytes.ofBigEndian (← take count)

/-- The text up to the next zero byte, which is skipped. -/
def text : Read String := do
  let r ← get
  let bytes := r.rest.takeWhile (· != 0)
  if r.rest.length ≤ bytes.length then corrupt (.unterminatedString r.file r.position)
  else
    match Utf8.decode? bytes with
    | none => corrupt (.invalidText r.file)
    | some s =>
      let read := bytes.length + 1
      set { r with position := r.position + read, rest := r.rest.drop read }
      return s

def atEnd : Read Bool := return (← get).rest.isEmpty

/-- Repeats a step until the file is at its end, over at most `fuel` steps. -/
def untilEndWithin {β : Type} (step : β → Read β) : (fuel : Nat) → β → Read β
  | 0, b => return b
  | fuel + 1, b => do
    if ← atEnd then return b
    untilEndWithin step fuel (← step b)

/-- Repeats a step that reads at least a byte until the file is at its end. -/
def untilEnd {β : Type} (step : β → Read β) (b : β) : Read β := do
  untilEndWithin step (← get).rest.length b

/-- Reads a file from its start. -/
def run {α : Type} (read : Read α) (file : String) (bytes : Bytes) : Checked α :=
  read.run' ⟨file, 0, bytes⟩

end Read

end RelEngine
