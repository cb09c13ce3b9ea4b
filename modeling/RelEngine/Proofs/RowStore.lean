import Mathlib.Order.Bounds.Basic
import RelEngine.Proofs.SortedMap
import RelEngine.RowStore

/-!
What changes of one table's rows leave as it was.
-/
namespace RelEngine

namespace RowStore

variable {s : RowStore} {id other : RowId}

theorem length_ids (s : RowStore) : s.ids.length = s.size := List.length_map _

theorem mem_ids_iff : id ∈ s.ids ↔ ∃ row, s.find? id = some row := SortedMap.mem_keys_iff

/-- The next id is not in use. -/
theorem find?_nextId : s.find? s.nextId = none := by
  rw [← Option.not_isSome_iff_eq_none]
  intro isUsed
  obtain ⟨row, found⟩ := Option.isSome_iff_exists.1 isUsed
  exact Nat.lt_irrefl _ (s.below _ (SortedMap.mem_of_find? found))

theorem find?_allocate_self (row : Bytes) : (s.allocate row).1.find? s.nextId = some row :=
  SortedMap.find?_insert_self row

theorem find?_allocate_of_ne (row : Bytes) (differ : id ≠ s.nextId) :
    (s.allocate row).1.find? id = s.find? id :=
  SortedMap.find?_insert_of_ne row differ

theorem nextId_allocate (s : RowStore) (row : Bytes) : (s.allocate row).1.nextId = s.nextId + 1 :=
  Nat.max_eq_right (Nat.le_succ _)

/-- A new row comes after all others. -/
theorem entries_allocate (s : RowStore) (row : Bytes) :
    (s.allocate row).1.rows.entries = s.rows.entries ++ [(s.nextId, row)] :=
  SortedMap.entries_insert_of_lt row fun e mem => Nat.compare_eq_lt.2 (s.below e mem)

/-! ## Numbers of 64 bits -/

theorem insert?_eq_some_iff {s' : RowStore} {row : Bytes} :
    s.insert? id row = some s' ↔ id + 1 < RowId.limit ∧ s.insert id row = s' := by
  rw [insert?, Option.ite_none_right_eq_some, Option.some.injEq]

theorem insert?_eq_none_iff {row : Bytes} : s.insert? id row = none ↔ RowId.limit ≤ id + 1 := by
  rw [insert?, ite_eq_right_iff, ← Nat.not_lt]
  exact ⟨fun stops fits => Option.some_ne_none _ (stops fits), fun tooLarge fits => absurd fits tooLarge⟩

/-- Up to its end the table gives out the ids that it would give out without one. -/
theorem allocate?_eq_some_iff {r : RowStore × RowId} {row : Bytes} :
    s.allocate? row = some r ↔ s.nextId + 1 < RowId.limit ∧ s.allocate row = r := by
  rw [allocate?, Option.map_eq_some_iff]
  constructor
  · rintro ⟨s', inserts, rfl⟩
    obtain ⟨fits, rfl⟩ := insert?_eq_some_iff.1 inserts
    exact ⟨fits, rfl⟩
  · rintro ⟨fits, rfl⟩
    exact ⟨_, insert?_eq_some_iff.2 ⟨fits, rfl⟩, rfl⟩

theorem allocate?_eq_none_iff {row : Bytes} : s.allocate? row = none ↔ RowId.limit ≤ s.nextId + 1 := by
  rw [allocate?, Option.map_eq_none_iff, insert?_eq_none_iff]

/-! ## Changed and removed rows -/

theorem find?_modify_self (f : Bytes → Bytes) : (s.modify id f).find? id = (s.find? id).map f :=
  SortedMap.find?_modify_self f

theorem find?_modify_of_ne (f : Bytes → Bytes) (differ : other ≠ id) :
    (s.modify id f).find? other = s.find? other :=
  SortedMap.find?_modify_of_ne f differ

theorem ids_modify (f : Bytes → Bytes) : (s.modify id f).ids = s.ids := SortedMap.keys_modify _ _ _

/-- A row put back in its own place changes nothing. -/
theorem modify_eq_self {row : Bytes} (found : s.find? id = some row) : (s.modify id fun _ => row) = s := by
  have rows : (s.modify id fun _ => row).rows = s.rows := by
    apply SortedMap.ext_find?
    intro other
    by_cases same : other = id
    · subst same
      have put : (s.modify other fun _ => row).find? other = (s.find? other).map fun _ => row :=
        find?_modify_self _
      rw [found] at put
      exact put.trans found.symm
    · exact find?_modify_of_ne _ same
  rw [mk.injEq]
  exact ⟨rows, rfl⟩

/-- To change the new row is to have put another one there. -/
theorem modify_allocate (row row' : Bytes) :
    ((s.allocate row).1.modify s.nextId fun _ => row') = (s.allocate row').1 := by
  have rows : ((s.allocate row).1.modify s.nextId fun _ => row').rows = (s.allocate row').1.rows := by
    apply SortedMap.ext_find?
    intro id
    by_cases new : id = s.nextId
    · subst new
      have changed : ((s.allocate row).1.modify s.nextId fun _ => row').find? s.nextId = some row' := by
        rw [find?_modify_self, find?_allocate_self]
        rfl
      exact changed.trans (find?_allocate_self row').symm
    · have same := find?_modify_of_ne (s := (s.allocate row).1) (fun _ => row') new
      rw [find?_allocate_of_ne row new] at same
      exact same.trans (find?_allocate_of_ne row' new).symm
  rw [mk.injEq]
  exact ⟨rows, rfl⟩

theorem find?_erase_self : (s.erase id).find? id = none := SortedMap.find?_erase_self

theorem find?_erase_of_ne (differ : other ≠ id) : (s.erase id).find? other = s.find? other :=
  SortedMap.find?_erase_of_ne differ

theorem entries_erase (s : RowStore) (id : RowId) :
    (s.erase id).rows.entries = s.rows.entries.filter fun e => e.1 ≠ id := by
  refine List.filter_congr fun e _ => ?_
  rw [decide_eq_decide, ne_eq, Nat.compare_eq_eq, eq_comm]

theorem ids_erase (s : RowStore) (id : RowId) : (s.erase id).ids = s.ids.filter (· ≠ id) := by
  rw [ids, ids, SortedMap.keys, SortedMap.keys, entries_erase, List.filter_map]
  rfl

/-! ## The least id of some kind -/

theorem find?_entries_eq_some_iff {p : RowId → Bool} {first : RowId} :
    (s.rows.entries.find? fun e => p e.1).map (·.1) = some first ↔ IsLeast {id | id ∈ s.ids ∧ p id = true} first := by
  have least : ∀ {id}, (s.rows.entries.find? fun e => p e.1).map (·.1) = some id →
      IsLeast {id | id ∈ s.ids ∧ p id = true} id := by
    intro id found
    obtain ⟨isId, holds, before⟩ := SortedMap.of_find?_entries found
    refine ⟨⟨isId, holds⟩, fun other ⟨isId', holds'⟩ => ?_⟩
    rcases before other isId' holds' with rfl | lt
    · exact Nat.le_refl _
    · exact (Nat.compare_eq_lt.1 lt).le
  refine ⟨least, fun isLeast => ?_⟩
  cases found : (s.rows.entries.find? fun e => p e.1).map (·.1) with
  | none =>
    have refused := SortedMap.of_find?_entries_none found first isLeast.1.1
    cases isLeast.1.2.symm.trans refused
  | some id => rw [(least found).unique isLeast]

theorem idAfter?_eq_find? (s : RowStore) (id : RowId) :
    s.idAfter? id = (s.rows.entries.find? fun e => decide (id < e.1)).map (·.1) := by
  simp only [idAfter?, SortedMap.after?, Nat.compare_eq_lt]

theorem idAfter?_eq_some_iff {next : RowId} :
    s.idAfter? id = some next ↔ IsLeast {other | other ∈ s.ids ∧ id < other} next := by
  rw [idAfter?_eq_find?, find?_entries_eq_some_iff (p := fun other => id < other)]
  simp only [decide_eq_true_iff]

theorem idAfter?_eq_none_iff : s.idAfter? id = none ↔ ∀ other ∈ s.ids, other ≤ id := by
  constructor
  · intro none other isId
    rw [idAfter?_eq_find?] at none
    have refused := SortedMap.of_find?_entries_none (p := fun other => decide (id < other)) none other isId
    exact Nat.not_lt.1 (of_decide_eq_false refused)
  · intro atMost
    rw [Option.eq_none_iff_forall_ne_some]
    intro next isNext
    obtain ⟨⟨isId, above⟩, -⟩ := idAfter?_eq_some_iff.1 isNext
    exact absurd above (Nat.not_lt.2 (atMost next isId))

/-! ## Rows that are put in one by one -/

def ofEntries (entries : List (RowId × Bytes)) : RowStore :=
  entries.foldl (fun s e => s.insert e.1 e.2) empty

/-- The entries of a table's rows give the same rows again. -/
theorem rows_ofEntries (s : RowStore) : (ofEntries s.rows.entries).rows = s.rows := by
  have rows : ∀ (entries : List (RowId × Bytes)) (start : RowStore),
      (entries.foldl (fun s e => s.insert e.1 e.2) start).rows =
        entries.foldl (fun m e => m.insert e.1 e.2) start.rows := by
    intro entries
    induction entries with
    | nil => exact fun _ => rfl
    | cons e entries ih => exact fun start => ih (start.insert e.1 e.2)
  apply SortedMap.ext_find?
  intro id
  rw [ofEntries, rows]
  cases found : s.rows.find? id with
  | some row =>
    exact SortedMap.find?_foldl_insert_of_mem s.rows.keys_nodup (SortedMap.mem_of_find? found)
  | none =>
    rw [SortedMap.find?_foldl_insert_of_ne]
    · rfl
    · rintro ⟨other, row⟩ mem rfl
      rw [SortedMap.find?_of_mem mem] at found
      cases found

/-- The mark is then right above the highest id. -/
theorem nextId_ofEntries (entries : List (RowId × Bytes)) :
    (ofEntries entries).nextId = (entries.map (·.1)).max?.elim 0 (· + 1) := by
  have raised : ∀ (entries : List (RowId × Bytes)) (start : RowStore),
      (entries.foldl (fun s e => s.insert e.1 e.2) start).nextId =
        max start.nextId ((entries.map (·.1)).max?.elim 0 (· + 1)) := by
    intro entries
    induction entries with
    | nil => exact fun start => (Nat.max_zero start.nextId).symm
    | cons e entries ih =>
      intro start
      rw [List.foldl_cons, ih, List.map_cons, List.max?_cons]
      cases (entries.map (·.1)).max? with
      | none => exact Nat.max_zero _
      | some highest =>
        change max (max start.nextId (e.1 + 1)) (highest + 1) = max start.nextId (max e.1 highest + 1)
        rw [Nat.max_assoc, Nat.add_max_add_right]
  exact (raised entries empty).trans (Nat.zero_max _)

end RowStore

namespace Stores

variable {stores : Stores} {store other : StoreId}

theorem rowsAt_update_self (f : RowStore → RowStore) (inside : store < stores.length) :
    (stores.update store f).rowsAt store = f (stores.rowsAt store) := by
  rw [rowsAt, rowsAt, update, List.getD_eq_getElem?_getD, List.getD_eq_getElem?_getD,
    List.getElem?_modify_eq, List.getElem?_eq_getElem inside]
  rfl

theorem rowsAt_update_of_ne (f : RowStore → RowStore) (differ : other ≠ store) :
    (stores.update store f).rowsAt other = stores.rowsAt other := by
  rw [rowsAt, rowsAt, update, List.getD_eq_getElem?_getD, List.getD_eq_getElem?_getD,
    List.getElem?_modify_ne _ _ differ.symm]

/-- Only stores that there are have rows. -/
theorem inside_of_find? {id : RowId} {row : Bytes} (found : (stores.rowsAt store).find? id = some row) :
    store < stores.length := by
  by_contra outside
  rw [rowsAt, List.getD_eq_getElem?_getD, List.getElem?_eq_none (Nat.le_of_not_lt outside)] at found
  cases found

theorem update_eq_self {f : RowStore → RowStore} (same : f (stores.rowsAt store) = stores.rowsAt store) :
    stores.update store f = stores := by
  apply List.ext_getElem?
  intro i
  by_cases here : store = i
  · subst here
    rw [rowsAt, List.getD_eq_getElem?_getD] at same
    rw [update, List.getElem?_modify_eq]
    cases isStore : stores[store]? with
    | none => rfl
    | some rows =>
      rw [isStore] at same
      exact congrArg some same
  · rw [update, List.getElem?_modify_ne _ _ here]

theorem length_update (f : RowStore → RowStore) : (stores.update store f).length = stores.length :=
  List.length_modify _ _ _

theorem update_update (stores : Stores) (store : StoreId) (f g : RowStore → RowStore) :
    (stores.update store f).update store g = stores.update store fun rows => g (f rows) := by
  rw [update, update, update, List.modify_modify_eq]
  rfl

/-- It makes no difference whether the new rows are made of the old ones or of what is read there. -/
theorem update_rowsAt (stores : Stores) (store : StoreId) (f : RowStore → RowStore) :
    (stores.update store fun _ => f (stores.rowsAt store)) = stores.update store f := by
  apply List.ext_getElem?
  intro i
  by_cases here : store = i
  · subst here
    rw [update, update, List.getElem?_modify_eq, List.getElem?_modify_eq, rowsAt,
      List.getD_eq_getElem?_getD]
    cases stores[store]? with
    | none => rfl
    | some rows => rfl
  · rw [update, update, List.getElem?_modify_ne _ _ here, List.getElem?_modify_ne _ _ here]

theorem rowsAt_extend_of_lt (inside : store < stores.length) :
    stores.extend.1.rowsAt store = stores.rowsAt store := by
  rw [extend, rowsAt, rowsAt, List.getD_eq_getElem?_getD, List.getD_eq_getElem?_getD,
    List.getElem?_append_left inside]

theorem rowsAt_extend_new : stores.extend.1.rowsAt stores.length = .empty := by
  rw [extend, rowsAt, List.getD_eq_getElem?_getD, List.getElem?_concat_length]
  rfl

theorem length_extend : stores.extend.1.length = stores.length + 1 := by
  rw [extend, List.length_append]
  rfl

end Stores

end RelEngine
