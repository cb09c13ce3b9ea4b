import RelEngine.Bytes
import RelEngine.SortedMap

/-!
The rows of one table, kept under row ids, and the collection of all tables' rows.

Ids come from a mark that never falls, so no id is given out a second time. A table's rows outlive the
table's name: they stay in the collection for cursors that still read them.

Ids and marks are numbers of 64 bits, and the sums that give them are checked: the program stops at one
that does not fit. `insert?` and `allocate?` have no result there. Statements and dumps go by `insert` and
`allocate`, which are the same as long as the sums fit. A table does not come to the end row by row, and of
dumps only one with a row under the very last id would.
-/
namespace RelEngine

abbrev RowId := Nat

/-- What ids and marks are below. -/
def RowId.limit : Nat := Nat.pow 2 64

/-- Packed rows by id. Every id in use lies below the next one to be given out. -/
structure RowStore where
  rows : SortedMap RowId Bytes
  nextId : RowId
  below : ∀ e ∈ rows.entries, e.1 < nextId

namespace RowStore

def empty : RowStore := ⟨.empty, 0, by simp [SortedMap.empty]⟩

def size (s : RowStore) : Nat := s.rows.size

def find? (s : RowStore) (id : RowId) : Option Bytes := s.rows.find? id

def ids (s : RowStore) : List RowId := s.rows.keys

def firstId? (s : RowStore) : Option RowId := s.rows.first?

def idAfter? (s : RowStore) (id : RowId) : Option RowId := s.rows.after? id

/-- Stores a row under a chosen id and raises the mark above it. -/
def insert (s : RowStore) (id : RowId) (row : Bytes) : RowStore where
  rows := s.rows.insert id row
  nextId := max s.nextId (id + 1)
  below e he := by
    rcases SortedMap.mem_insert he with rfl | he
    · exact Nat.lt_of_lt_of_le (Nat.lt_succ_self _) (Nat.le_max_right _ _)
    · exact Nat.lt_of_lt_of_le (s.below e he) (Nat.le_max_left _ _)

/-- Stores a row under the next id, which is part of the answer. -/
def allocate (s : RowStore) (row : Bytes) : RowStore × RowId := (s.insert s.nextId row, s.nextId)

/-- Stores a row under a chosen id, unless the id above it is no number of 64 bits. -/
def insert? (s : RowStore) (id : RowId) (row : Bytes) : Option RowStore :=
  if id + 1 < RowId.limit then some (s.insert id row) else none

/-- Stores a row under the next id, unless the id above that is no number of 64 bits. -/
def allocate? (s : RowStore) (row : Bytes) : Option (RowStore × RowId) :=
  (s.insert? s.nextId row).map (·, s.nextId)

/-- Removes a row. The mark stays. -/
def erase (s : RowStore) (id : RowId) : RowStore where
  rows := s.rows.erase id
  nextId := s.nextId
  below e he := s.below e (SortedMap.mem_of_mem_erase he)

def modify (s : RowStore) (id : RowId) (f : Bytes → Bytes) : RowStore where
  rows := s.rows.modify id f
  nextId := s.nextId
  below e he := by
    obtain ⟨old, mem, rfl⟩ := List.mem_map.1 he
    exact s.below old mem

end RowStore

/-- Where a table keeps its rows. -/
abbrev StoreId := Nat

/-- The rows of all tables, dropped ones included. -/
abbrev Stores := List RowStore

namespace Stores

def rowsAt (stores : Stores) (id : StoreId) : RowStore := stores.getD id .empty

/-- A new empty place for rows, which is part of the answer. -/
def extend (stores : Stores) : Stores × StoreId := (stores ++ [.empty], stores.length)

def update (stores : Stores) (id : StoreId) (f : RowStore → RowStore) : Stores := stores.modify id f

end Stores

end RelEngine
