import RelEngine.Proofs.RowStore
import RelEngine.Scan.Rows

/-!
Where the reader of a table goes next. Its place splits all ids, used or not, into those that are behind it and
those that are still to come, and a step goes to the least row to come.
-/
namespace RelEngine

namespace Position

/-- The id is still to come, whether or not there is a row under it. -/
def isBefore : Position → RowId → Bool
  | .beforeFirst, _ => true
  | .onRow here, id | .afterRemoved here, id => here < id
  | .exhausted, _ => false

variable {p : Position} {rows : RowStore} {next : RowId}

/-- What comes after an id that is still to come is so as well. -/
theorem isBefore_of_later {here id : RowId} (toCome : p.isBefore here = true)
    (later : (onRow here).isBefore id = true) : p.isBefore id = true := by
  have above : here < id := of_decide_eq_true later
  cases p with
  | beforeFirst => rfl
  | onRow old => exact decide_eq_true (Nat.lt_trans (of_decide_eq_true toCome) above)
  | afterRemoved old => exact decide_eq_true (Nat.lt_trans (of_decide_eq_true toCome) above)
  | exhausted => cases toCome

theorem following?_eq_find? (rows : RowStore) (p : Position) :
    p.following? rows = (rows.rows.entries.find? fun e => p.isBefore e.1).map (·.1) := by
  cases p with
  | beforeFirst =>
    simp only [following?, isBefore, RowStore.firstId?, SortedMap.first?]
    cases rows.rows.entries with
    | nil => rfl
    | cons e entries => rfl
  | onRow here =>
    simp only [following?, isBefore, RowStore.idAfter?, SortedMap.after?, Nat.compare_eq_lt]
  | afterRemoved here =>
    simp only [following?, isBefore, RowStore.idAfter?, SortedMap.after?, Nat.compare_eq_lt]
  | exhausted =>
    have none : (rows.rows.entries.find? fun _ => false) = none :=
      List.find?_eq_none.2 fun _ _ => Bool.false_ne_true
    simp only [following?, isBefore, none, Option.map_none]

/-- The next row is the least one to come. -/
theorem of_following? (h : p.following? rows = some next) :
    next ∈ rows.ids ∧ p.isBefore next = true ∧
      ∀ other ∈ rows.ids, p.isBefore other = true → next ≤ other := by
  rw [following?_eq_find?] at h
  obtain ⟨⟨isId, toCome⟩, least⟩ := RowStore.find?_entries_eq_some_iff.1 h
  exact ⟨isId, toCome, fun other mem isBefore => least ⟨mem, isBefore⟩⟩

/-- Without a next row none is to come. -/
theorem of_following?_none (h : p.following? rows = none) : ∀ other ∈ rows.ids, p.isBefore other = false := by
  rw [following?_eq_find?] at h
  exact SortedMap.of_find?_entries_none h

/-! ## The rows to come -/

/-- The ids of the rows to come, in the order in which they come. -/
def ahead (rows : RowStore) (p : Position) : List RowId := rows.ids.filter p.isBefore

variable {id : RowId} {rest : List RowId}

theorem ahead_beforeFirst (rows : RowStore) : beforeFirst.ahead rows = rows.ids := List.filter_eq_self.2 fun _ _ => rfl

theorem following?_eq_head? (rows : RowStore) (p : Position) : p.following? rows = (p.ahead rows).head? := by
  rw [following?_eq_find?, ahead, List.head?_filter, RowStore.ids, SortedMap.keys, List.find?_map]
  rfl

/-- On the first of them the others are still to come. -/
theorem ahead_onRow (h : p.ahead rows = id :: rest) : (onRow id).ahead rows = rest := by
  have ascending : (p.ahead rows).Pairwise (· < ·) :=
    (rows.rows.keys_pairwise.imp Nat.compare_eq_lt.1).filter _
  have toCome : p.isBefore id = true := by
    have mem : id ∈ p.ahead rows := h ▸ List.mem_cons_self
    exact (List.mem_filter.1 mem).2
  have narrowed : (onRow id).ahead rows = (p.ahead rows).filter (onRow id).isBefore := by
    rw [ahead, ahead, List.filter_filter]
    refine List.filter_congr fun other _ => ?_
    cases later : (onRow id).isBefore other with
    | false => rfl
    | true => rw [isBefore_of_later toCome later, Bool.and_true]
  rw [h, List.pairwise_cons] at ascending
  rw [narrowed, h, List.filter_cons_of_neg (by simp [isBefore]), List.filter_eq_self]
  exact fun other mem => decide_eq_true (ascending.1 other mem)

/-- It makes no difference to them that it is removed. -/
theorem ahead_afterRemoved (h : p.ahead rows = id :: rest) : (afterRemoved id).ahead (rows.erase id) = rest := by
  have same : (afterRemoved id).ahead (rows.erase id) = (onRow id).ahead rows := by
    rw [ahead, ahead, RowStore.ids_erase, List.filter_filter]
    refine List.filter_congr fun other _ => ?_
    change (decide (id < other) && decide (other ≠ id)) = decide (id < other)
    rw [← Bool.decide_and, decide_eq_decide]
    exact and_iff_left_of_imp Nat.ne_of_gt
  rw [same, ahead_onRow h]

end Position

/-- A step of the reader of a table never fails. The reader is then on the row that it announces. -/
theorem Scan.runFrom_table_next (t : TableView) (stores : Stores) (p : Position) :
    ((Scan.table t).next stores).runFrom p =
      (.ok (p.following? (t.rows stores)).isSome, Position.ofRow? (p.following? (t.rows stores))) := rfl

end RelEngine
