import RelEngine.Error

/-!
Columns and the layout of a packed row.

A row starts with one null bit per column, rounded up to whole bytes. The fields follow in the order
of their columns without gaps, so a field's place is the sum of the sizes before it.
-/
namespace RelEngine

structure Column where
  name : String
  type : DataType
  /-- Bytes of the field in a row. For a string column this is the capacity. -/
  size : Nat
  nullable : Bool
  unique : Bool
  deriving DecidableEq

namespace Column

/-- A nullable column. The capacity counts only for strings. -/
def plain (name : String) (type : DataType) (capacity : Nat) : Column :=
  ⟨name, type, type.fixedSize?.getD capacity, true, false⟩

def notNull (c : Column) : Column := { c with nullable := false }

def distinct (c : Column) : Column := { c with unique := true }

def totalSize : List Column → Nat
  | [] => 0
  | c :: cs => c.size + totalSize cs

/-- A primary key is unique and never NULL. -/
def primaryKey (c : Column) : Column := c.notNull.distinct

end Column

/-- The columns of a table. No two have the same name. -/
structure Schema where
  columns : List Column
  nodup : (columns.map (·.name)).Nodup

/-- A column together with its place: its null bit, and its first byte counted from the row's
start. -/
structure Slot where
  index : Nat
  offset : Nat
  column : Column
  deriving DecidableEq

namespace Schema

instance : DecidableEq Schema := fun a b =>
  if h : a.columns = b.columns then isTrue (by cases a; cases b; simp_all)
  else isFalse fun e => h (e ▸ rfl)

def empty : Schema := ⟨[], by simp⟩

def names (s : Schema) : List String := s.columns.map (·.name)

def size (s : Schema) : Nat := s.columns.length

def has (s : Schema) (name : String) : Bool := s.names.contains name

/-- Appends a column, unless its name is taken. -/
def add? (s : Schema) (c : Column) : Option Schema :=
  if h : c.name ∈ s.names then none
  else some ⟨s.columns ++ [c], by
    rw [List.map_append, List.nodup_append]
    refine ⟨s.nodup, by simp, fun a ha b hb e => h ?_⟩
    have : b = c.name := by simpa using hb
    exact this ▸ e ▸ ha⟩

/-- Appends a column. A name that is taken leaves the schema as it is. -/
def add (s : Schema) (c : Column) : Schema := (s.add? c).getD s

/-- The schema of a list of columns, of which the first of each name counts. -/
def ofColumns (columns : List Column) : Schema := columns.foldl add empty

def bitmapSize (s : Schema) : Nat := (s.size + 7) / 8

/-- Bytes of the first `n` fields together. -/
def fieldBytes (s : Schema) (n : Nat) : Nat := Column.totalSize (s.columns.take n)

def rowSize (s : Schema) : Nat := s.bitmapSize + s.fieldBytes s.size

def slots (s : Schema) : List Slot :=
  s.columns.mapIdx fun i c => ⟨i, s.bitmapSize + s.fieldBytes i, c⟩

def slot? (s : Schema) (name : String) : Option Slot := s.slots.find? (·.column.name == name)

def slot (s : Schema) (name : String) : Checked Slot :=
  match s.slot? name with
  | some slot => .ok slot
  | none => .error (.fieldNotFound name)

def column (s : Schema) (name : String) : Checked Column := return (← s.slot name).column

end Schema

end RelEngine
