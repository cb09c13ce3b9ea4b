import RelEngine.Proofs.Relation.Shows
import RelEngine.Proofs.SortedMap
import RelEngine.Proofs.TableView

/-!
Relations that have the rows of a plan.

Each operation of relations has a plan that it goes with. Sides are exchanged between the two where the
plan reads the joined table in the outer loop, and names that both sides have are not compared.
-/
namespace RelEngine

/-- A condition or a computed column failed on some row. -/
def Relation.Failed (r : Relation) : Prop := ∃ e, .error e ∈ r.log

/-- The relation has a plan's names and rows, and its log tells of every failure. -/
structure Mirrors (stores : Stores) (plan : Plan) (r : Relation) : Prop where
  has : ∀ name, plan.has name = r.heading.any (·.isNamed name)
  rows : List.Forall₂ (Shows r.heading) (plan.rows stores) r.rows
  fails : ∀ e, plan.Fails stores e → r.Failed
  logged : ∀ row ∈ r.rows, ∀ e, .error e ∈ row → r.Failed

namespace Mirrors

variable {stores : Stores} {plan lplan rplan : Plan} {r left right : Relation} {tree : Tree}
  {e : Expr}

/-! ## Tables -/

theorem shows_read {t : TableView} (plain : ∀ c ∈ t.schema.names, FieldName.Plain c) {id : RowId}
    {row : Bytes} (found : (t.rows stores).find? id = some row) :
    Shows (Relation.ofTable t stores).heading (t.read stores (some id))
      (t.schema.slots.map fun slot => .ok (Row.read row slot)) where
  width := by
    rw [List.length_map, Relation.ofTable, List.length_map, ← t.schema.names_slots, List.length_map]
  agree name unique := by
    have heading : (Relation.ofTable t stores).heading =
        t.schema.slots.map fun slot => FieldName.mk (some t.qualifier) slot.column.name := by
      rw [Relation.ofTable, ← t.schema.names_slots, List.map_map]
      rfl
    have has : t.has name = true := by
      have any := unique.any
      rw [Relation.ofTable, List.any_map] at any
      rw [TableView.has_eq_any plain]
      exact any
    obtain ⟨c, isLocal⟩ := Option.isSome_iff_exists.1 has
    have isFound := isLocal
    rw [TableView.local?_eq_find? plain] at isFound
    have member : (t.schema.slot? c).isSome = true := by
      rw [Schema.slot?_isSome, Schema.has_iff]
      exact List.mem_of_find?_eq_some isFound
    obtain ⟨slot, isSlot⟩ := Option.isSome_iff_exists.1 member
    have cell : (FieldName.mk (some t.qualifier) c, .ok (Row.read row slot)) ∈
        (Relation.ofTable t stores).heading.zip
          (t.schema.slots.map fun slot => (.ok (Row.read row slot) : Checked Value)) := by
      rw [heading, List.zip_map', ← Schema.name_of_slot? isSlot]
      exact List.mem_map_of_mem (List.mem_of_find?_eq_some isSlot)
    have named := List.find?_some isFound
    have resolved : t.resolve name = .ok c := by rw [TableView.resolve, isLocal]
    have slotOk : t.schema.slot c = .ok slot := by rw [Schema.slot, isSlot]
    rw [Relation.lookup_of_unique unique cell named]
    simp only [TableView.read, resolved, Checked.ok_bind, Option.bind_some, found, Row.get, slotOk]
    rfl

theorem ofTable {t : TableView} (plain : ∀ c ∈ t.schema.names, FieldName.Plain c) :
    Mirrors stores (.table t) (.ofTable t stores) where
  has name := by
    rw [Relation.ofTable, List.any_map]
    exact TableView.has_eq_any plain name
  rows := by
    rw [Plan.rows, RowStore.ids, SortedMap.keys, List.map_map, Relation.ofTable,
      List.forall₂_map_left_iff, List.forall₂_map_right_iff, List.forall₂_same]
    exact fun entry mem => shows_read plain (SortedMap.find?_of_mem mem)
  fails _ cause := cause.elim
  logged row mem e bad := by
    obtain ⟨entry, _, rfl⟩ := List.mem_map.1 mem
    obtain ⟨slot, _, eq⟩ := List.mem_map.1 bad
    cases eq

/-! ## Pairs of rows -/

section

variable {lrec rrec : Record} {l r : List (Checked Value)}

theorem shows_pair (hl : Mirrors stores lplan left) (sl : Shows left.heading lrec l)
    (sr : Shows right.heading rrec r) :
    Shows (left.heading ++ right.heading) (Record.pair lplan.has lrec rrec) (l ++ r) := by
  refine sl.append sr (fun name here _ => ?_) fun name elsewhere _ => ?_
  · rw [Record.pair, hl.has, here, if_pos rfl]
  · rw [Record.pair, hl.has, elsewhere, if_neg Bool.false_ne_true]

theorem shows_swapped (hr : Mirrors stores rplan right) (sl : Shows left.heading lrec l)
    (sr : Shows right.heading rrec r) :
    Shows (left.heading ++ right.heading) (Record.pair rplan.has rrec lrec) (l ++ r) := by
  refine sl.append sr (fun name _ elsewhere => ?_) fun name _ here => ?_
  · rw [Record.pair, hr.has, elsewhere, if_neg Bool.false_ne_true]
  · rw [Record.pair, hr.has, here, if_pos rfl]

theorem shows_join (hl : Mirrors stores lplan left) (hr : Mirrors stores rplan right)
    (sl : Shows left.heading lrec l) (sr : Shows right.heading rrec r) :
    Shows (left.heading ++ right.heading)
      (Record.join (Plan.readsInner lplan rplan false) lrec (some rrec)) (l ++ r) := by
  refine sl.append sr (fun name here _ => ?_) fun name elsewhere here => ?_
  · simp [Record.join, Plan.readsInner, Scan.readsInner, hl.has, here]
  · simp [Record.join, Plan.readsInner, Scan.readsInner, hl.has, hr.has, elsewhere, here]

theorem shows_flipped (hl : Mirrors stores lplan left)
    (sl : Shows left.heading lrec l) (sr : Shows right.heading rrec r) :
    Shows (left.heading ++ right.heading)
      (Record.join (Plan.readsInner rplan lplan true) rrec (some lrec)) (l ++ r) := by
  refine sl.append sr (fun name here _ => ?_) fun name elsewhere _ => ?_
  · simp [Record.join, Plan.readsInner, Scan.readsInner, hl.has, here]
  · simp [Record.join, Plan.readsInner, Scan.readsInner, hl.has, elsewhere]

end

/-- A row without a match is one whose match is all NULL. -/
theorem join_none (readsInner : String → Bool) (outer : Record) :
    Record.join readsInner outer none = Record.join readsInner outer (some fun _ => .ok none) := rfl

theorem logged_or_null (h : Mirrors stores plan r) {row : List (Checked Value)}
    (mem : row ∈ r.rows ∨ row = r.nullRow) {err : Error} (bad : .error err ∈ row) : r.Failed := by
  rcases mem with mem | rfl
  · exact h.logged row mem err bad
  · obtain ⟨_, _, eq⟩ := List.mem_map.1 bad
    exact nomatch eq

/-! ## Products -/

theorem product (hl : Mirrors stores lplan left) (hr : Mirrors stores rplan right) :
    Mirrors stores (.product lplan rplan) (left.product right) where
  has name := by
    rw [Relation.product, List.any_append, ← hl.has, ← hr.has]
    rfl
  rows := by
    refine List.rel_flatMap hl.rows fun lrec l showsLeft => ?_
    exact List.rel_map (fun rrec r showsRight => hl.shows_pair showsLeft showsRight) hr.rows
  fails err cause := by
    rcases cause with cause | cause
    · obtain ⟨e, mem⟩ := hl.fails err cause
      exact ⟨e, List.mem_append_left _ mem⟩
    · obtain ⟨e, mem⟩ := hr.fails err cause
      exact ⟨e, List.mem_append_right _ mem⟩
  logged row mem e bad := by
    obtain ⟨l, hl', mem⟩ := List.mem_flatMap.1 mem
    obtain ⟨r, hr', rfl⟩ := List.mem_map.1 mem
    rcases List.mem_append.1 bad with bad | bad
    · obtain ⟨e, mem⟩ := hl.logged l hl' e bad
      exact ⟨e, List.mem_append_left _ mem⟩
    · obtain ⟨e, mem⟩ := hr.logged r hr' e bad
      exact ⟨e, List.mem_append_right _ mem⟩

/-! ## Joins -/

section

variable {on : Tree} {l r : List (Checked Value)}

theorem joinLog_of_left (h : left.Failed) : ∃ e, .error e ∈ left.joinLog right on := by
  obtain ⟨e, mem⟩ := h
  exact ⟨e, List.mem_append_left _ (List.mem_append_left _ mem)⟩

theorem joinLog_of_right (h : right.Failed) : ∃ e, .error e ∈ left.joinLog right on := by
  obtain ⟨e, mem⟩ := h
  exact ⟨e, List.mem_append_left _ (List.mem_append_right _ mem)⟩

theorem joinLog_of_pair (hl : l ∈ left.rows) (hr : r ∈ right.rows)
    (h : ∃ e, Relation.evaluate (left.heading ++ right.heading) on (l ++ r) = .error e) :
    ∃ e, .error e ∈ left.joinLog right on := by
  obtain ⟨e, bad⟩ := h
  have pair : l ++ r ∈ (left.product right).rows :=
    List.mem_flatMap.2 ⟨l, hl, List.mem_map_of_mem hr⟩
  refine ⟨e, List.mem_append_right _ ?_⟩
  rw [← bad]
  exact List.mem_map_of_mem pair

theorem joinLog_of_cell (hl : Mirrors stores lplan left) (hr : Mirrors stores rplan right)
    (ml : l ∈ left.rows ∨ l = left.nullRow) (mr : r ∈ right.rows ∨ r = right.nullRow) {err : Error}
    (bad : .error err ∈ l ++ r) : ∃ e, .error e ∈ left.joinLog right on := by
  rcases List.mem_append.1 bad with bad | bad
  · exact joinLog_of_left (hl.logged_or_null ml bad)
  · exact joinLog_of_right (hr.logged_or_null mr bad)

end

/-- The same rows fulfil a condition on both sides. -/
theorem fulfilled {heading : List FieldName} {records : List Record}
    {rows : List (List (Checked Value))} (binds : Binds heading tree e) (stores : Stores)
    (h : List.Forall₂ (Shows heading) records rows) :
    List.Forall₂ (Shows heading)
      (records.filter fun record => e.accepts stores record = .ok true)
      (rows.filter (Relation.fulfils heading tree)) := by
  refine List.rel_filter (fun record row shows => ?_) h
  change decide (e.accepts stores record = .ok true) = true ↔ _
  rw [shows.fulfils binds]

theorem innerJoin (hl : Mirrors stores lplan left) (hr : Mirrors stores rplan right)
    (binds : Binds (left.heading ++ right.heading) tree e) :
    Mirrors stores (.select (.product rplan lplan) e) (left.innerJoin right tree) where
  has name := by
    rw [Relation.innerJoin, List.any_append, ← hl.has, ← hr.has, Bool.or_comm]
    rfl
  rows := by
    rw [Plan.rows, Plan.rows, List.filter_flatMap]
    refine List.rel_flatMap hr.rows fun rrec r showsRight => ?_
    exact fulfilled binds _
      (List.rel_map (fun lrec l showsLeft => hr.shows_swapped showsLeft showsRight) hl.rows)
  fails err cause := by
    rcases cause with (cause | cause) | ⟨record, mem, bad⟩
    · exact joinLog_of_right (hr.fails err cause)
    · exact joinLog_of_left (hl.fails err cause)
    · obtain ⟨rrec, mr, mem⟩ := List.mem_flatMap.1 mem
      obtain ⟨lrec, ml, rfl⟩ := List.mem_map.1 mem
      obtain ⟨r, mr, showsRight⟩ := exists_of_mem_left hr.rows mr
      obtain ⟨l, ml, showsLeft⟩ := exists_of_mem_left hl.rows ml
      exact joinLog_of_pair ml mr ((hr.shows_swapped showsLeft showsRight).failed binds bad)
  logged row mem err bad := by
    obtain ⟨r, mr, mem⟩ := List.mem_flatMap.1 mem
    obtain ⟨l, ml, rfl⟩ := List.mem_map.1 (List.mem_filter.1 mem).1
    exact joinLog_of_cell hl hr (.inl ml) (.inl mr) bad

theorem shows_joinedRows {heading innerHeading : List FieldName} {readsInner : String → Bool}
    {outer : Record} {inner : List Record} {innerRows : List (List (Checked Value))}
    {combine : List (Checked Value) → List (Checked Value)} {alone : List (Checked Value)}
    (binds : Binds heading tree e) (rows : List.Forall₂ (Shows innerHeading) inner innerRows)
    (pair : ∀ record row, Shows innerHeading record row →
      Shows heading (Record.join readsInner outer (some record)) (combine row))
    (single : Shows heading (Record.join readsInner outer none) alone) :
    List.Forall₂ (Shows heading) (Plan.joinedRows readsInner (e.accepts stores) inner outer)
      (let found := (innerRows.map combine).filter (Relation.fulfils heading tree)
      if found.isEmpty then [alone] else found) := by
  have found := fulfilled binds stores (List.rel_map (fun record row => pair record row) rows)
  simp only [Plan.joinedRows]
  generalize (inner.map _).filter _ = records at found
  generalize (innerRows.map combine).filter _ = rows at found
  cases found with
  | nil => exact .cons single .nil
  | cons head tail => exact .cons head tail

theorem leftJoin (hl : Mirrors stores lplan left) (hr : Mirrors stores rplan right)
    (binds : Binds (left.heading ++ right.heading) tree e) :
    Mirrors stores (.join lplan rplan e false) (left.leftJoin right tree) where
  has name := by
    rw [Relation.leftJoin, List.any_append, ← hl.has, ← hr.has]
    rfl
  rows := by
    refine List.rel_flatMap hl.rows fun lrec l showsLeft => ?_
    refine shows_joinedRows binds hr.rows
      (fun rrec r showsRight => hl.shows_join hr showsLeft showsRight) ?_
    rw [join_none]
    exact hl.shows_join hr showsLeft (.nulls _)
  fails err cause := by
    rcases cause with cause | cause | ⟨lrec, ml, rrec, mr, bad⟩
    · exact joinLog_of_left (hl.fails err cause)
    · exact joinLog_of_right (hr.fails err cause)
    · obtain ⟨r, mr, showsRight⟩ := exists_of_mem_left hr.rows mr
      obtain ⟨l, ml, showsLeft⟩ := exists_of_mem_left hl.rows ml
      exact joinLog_of_pair ml mr ((hl.shows_join hr showsLeft showsRight).failed binds bad)
  logged row mem err bad := by
    obtain ⟨l, ml, mem⟩ := List.mem_flatMap.1 mem
    simp only at mem
    split at mem
    · rw [List.mem_singleton.1 mem] at bad
      exact joinLog_of_cell hl hr (.inl ml) (.inr rfl) bad
    · obtain ⟨r, mr, rfl⟩ := List.mem_map.1 (List.mem_filter.1 mem).1
      exact joinLog_of_cell hl hr (.inl ml) (.inl mr) bad

theorem rightJoin (hl : Mirrors stores lplan left) (hr : Mirrors stores rplan right)
    (binds : Binds (left.heading ++ right.heading) tree e) :
    Mirrors stores (.join rplan lplan e true) (left.rightJoin right tree) where
  has name := by
    rw [Relation.rightJoin, List.any_append, ← hl.has, ← hr.has, Bool.or_comm]
    rfl
  rows := by
    refine List.rel_flatMap hr.rows fun rrec r showsRight => ?_
    refine shows_joinedRows binds hl.rows
      (fun lrec l showsLeft => hl.shows_flipped showsLeft showsRight) ?_
    rw [join_none]
    exact hl.shows_flipped (.nulls _) showsRight
  fails err cause := by
    rcases cause with cause | cause | ⟨rrec, mr, lrec, ml, bad⟩
    · exact joinLog_of_right (hr.fails err cause)
    · exact joinLog_of_left (hl.fails err cause)
    · obtain ⟨r, mr, showsRight⟩ := exists_of_mem_left hr.rows mr
      obtain ⟨l, ml, showsLeft⟩ := exists_of_mem_left hl.rows ml
      exact joinLog_of_pair ml mr ((hl.shows_flipped showsLeft showsRight).failed binds bad)
  logged row mem err bad := by
    obtain ⟨r, mr, mem⟩ := List.mem_flatMap.1 mem
    simp only at mem
    split at mem
    · rw [List.mem_singleton.1 mem] at bad
      exact joinLog_of_cell hl hr (.inr rfl) (.inl mr) bad
    · obtain ⟨l, ml, rfl⟩ := List.mem_map.1 (List.mem_filter.1 mem).1
      exact joinLog_of_cell hl hr (.inl ml) (.inl mr) bad

/-! ## Computed columns and filters -/

theorem shows_extend {heading : List FieldName} {record : Record} {row : List (Checked Value)}
    (h : Shows heading record row) (binds : Binds heading tree e) (name : String) :
    Shows (heading ++ [⟨none, name⟩]) (record.extend name (e.eval stores record))
      (row ++ [Relation.evaluate heading tree row]) := by
  have isName : ∀ field, [FieldName.mk none name].any (·.isNamed field) = (field == name) := by
    intro field
    rw [List.any_cons, List.any_nil, Bool.or_false, FieldName.isNamed_computed, Bool.beq_comm]
  have cell : Shows [⟨none, name⟩] (fun _ => e.eval stores record)
      [Relation.evaluate heading tree row] := by
    refine ⟨rfl, fun field unique => ?_⟩
    obtain ⟨column, mem, named⟩ := List.any_eq_true.1 unique.any
    rw [List.mem_singleton.1 mem] at named
    rw [Relation.lookup_of_unique unique (List.mem_singleton_self _) named]
    exact h.evaluate binds _
  refine h.append cell (fun field _ elsewhere => ?_) fun field _ here => ?_
  · rw [isName] at elsewhere
    rw [Record.extend, elsewhere, if_neg Bool.false_ne_true]
  · rw [isName] at here
    rw [Record.extend, here, if_pos rfl]

theorem extend (h : Mirrors stores plan r) (binds : Binds r.heading tree e) (name : String) :
    Mirrors stores (.extend plan e name) (r.extend tree name) where
  has field := by
    rw [Relation.extend, List.any_append, ← h.has, List.any_cons, List.any_nil, Bool.or_false,
      FieldName.isNamed_computed, Bool.or_comm, Bool.beq_comm]
    rfl
  rows := by
    refine List.rel_map (fun record row shows => ?_) h.rows
    exact shows_extend shows binds name
  fails err cause := by
    obtain ⟨e, mem⟩ := h.fails err cause
    exact ⟨e, List.mem_append_left _ mem⟩
  logged row mem err bad := by
    obtain ⟨old, hold, rfl⟩ := List.mem_map.1 mem
    rcases List.mem_append.1 bad with bad | bad
    · obtain ⟨e, mem⟩ := h.logged old hold err bad
      exact ⟨e, List.mem_append_left _ mem⟩
    · refine ⟨err, List.mem_append_right _ ?_⟩
      rw [List.mem_singleton.1 bad]
      exact List.mem_map_of_mem hold

/-- Without any source there is one row, and a computed column is its first. -/
theorem single (binds : Binds [] tree e) (name : String) :
    Mirrors stores (.single e name) (Relation.unit.extend tree name) where
  has field := by
    rw [Relation.extend, List.any_append, List.any_cons, List.any_nil, Bool.or_false,
      FieldName.isNamed_computed, Bool.beq_comm]
    rfl
  rows := by
    have shows : Shows [] noFields [] := ⟨rfl, fun _ unique => nomatch unique⟩
    exact .cons (shows_extend shows binds name) .nil
  fails _ cause := cause.elim
  logged row mem err bad := by
    rw [List.mem_singleton.1 mem] at bad
    exact ⟨err, bad⟩

theorem restrict (h : Mirrors stores plan r) (binds : Binds r.heading tree e) :
    Mirrors stores (.select plan e) (r.restrict tree) where
  has := h.has
  rows := fulfilled binds _ h.rows
  fails err cause := by
    rcases cause with cause | ⟨record, mem, bad⟩
    · obtain ⟨e, mem⟩ := h.fails err cause
      exact ⟨e, List.mem_append_left _ mem⟩
    · obtain ⟨row, mem, shows⟩ := exists_of_mem_left h.rows mem
      obtain ⟨err, eq⟩ := shows.failed binds bad
      refine ⟨err, List.mem_append_right _ ?_⟩
      rw [← eq]
      exact List.mem_map_of_mem mem
  logged row mem err bad := by
    obtain ⟨e, mem⟩ := h.logged row (List.mem_filter.1 mem).1 err bad
    exact ⟨e, List.mem_append_left _ mem⟩

end Mirrors

end RelEngine
