import RelEngine.Proofs.Parallel
import RelEngine.Proofs.Statement.Sweep

/-!
An UPDATE in two passes of one cursor. The first pass computes the new rows, and the second one goes back to the
start and writes them, where the condition is asked again while the rows under the cursor are being changed.

Writing moves no row, so both passes come to the rows that were there at first, to each of them once.
-/
namespace RelEngine

variable {db : Database} {view : TableView} {filter : Option Expr} {p : Position} {rest : List RowId} {id : RowId}
  {table : String} {assignments : List Assignment} {columns : List Column} {earlier rows : List (List Value)}
  {fuel : Nat}

/-- Writing keeps the ids of the rows, also if it ends with an error. -/
theorem TableView.ids_setAll (view : TableView) (id : RowId) (fields : List (Column × Value)) (db : Database) :
    (view.rows ((view.setAll id fields).runFrom db).2.stores).ids = (view.rows db.stores).ids := by
  let SameIds (db' : Database) : Prop := (view.rows db'.stores).ids = (view.rows db.stores).ids
  refine Move.forM_invariant (P := SameIds) (fun e _ db' same => ?_) rfl
  refine Move.state_bind_result (P := SameIds) (Move.runFrom_get db') same fun _ eq => ?_
  cases eq
  refine Move.state_bind_lift (P := SameIds) same fun stores written => ?_
  obtain ⟨_, row, row', -, found, -, rfl⟩ := write_eq_ok_local written
  change ((db'.stores.update view.store _).rowsAt view.store).ids = _
  rw [Stores.rowsAt_update_self _ (Stores.inside_of_find? found), RowStore.ids_modify]
  exact same

namespace Cursor

/-- The new rows for the rows that a cursor comes to, no more than `fuel` of them, after those in `earlier`. -/
def newRows (db : Database) (table : String) (assignments : List Assignment) :
    Nat → Cursor → List (List Value) → Checked (List (List Value) × Cursor)
  | 0, c, earlier => .ok (earlier, c)
  | fuel + 1, c, earlier => do
    let (more, c) := c.next db.stores
    if ← more then
      let row ← db.newRowOn table (c.read db.stores) assignments earlier
      newRows db table assignments fuel c (earlier ++ [row])
    else return (earlier, c)

/-- Writes values into fields of the row that a cursor stands on, one after the other. -/
def setAll (c : Cursor) (fields : List (Column × Value)) : Change Unit :=
  fields.forM fun (column, value) => do
    let db ← get
    set { db with stores := (← c.write db.stores column.name value) }

/-- Writes new rows over the rows that a cursor comes to, no more than `fuel` of them. -/
def writeRows (columns : List Column) : Nat → Cursor → List (List Value) → Change Unit
  | 0, _, _ => return
  | fuel + 1, c, rows => do
    let db ← get
    let (more, c) := c.next db.stores
    if ← more then
      match rows with
      | [] => return
      | row :: rows =>
        c.setAll (columns.zip row)
        writeRows columns fuel c rows

/-! ## What the cursor shows and where it writes -/

theorem fieldCheck_filtered (view : TableView) (filter : Option Expr) (p : Position) :
    (filtered view filter p).fieldCheck = view.fieldCheck := by
  cases filter with
  | none => rfl
  | some e => rfl

theorem read_filtered (view : TableView) (filter : Option Expr) (id : RowId) (stores : Stores) :
    (filtered view filter (.onRow id)).read stores = view.read stores (some id) := by
  cases filter with
  | none => rfl
  | some e => rfl

theorem setAll_filtered (view : TableView) (filter : Option Expr) (id : RowId) (fields : List (Column × Value)) :
    (filtered view filter (.onRow id)).setAll fields = view.setAll id fields := by
  cases filter with
  | none => rfl
  | some e => rfl

/-! ## The pass that computes -/

theorem newRows_succ (db : Database) (table : String) (assignments : List Assignment) (fuel : Nat) (c : Cursor)
    (earlier : List (List Value)) :
    newRows db table assignments (fuel + 1) c earlier =
      match c.next db.stores with
      | (.error e, _) => .error e
      | (.ok false, c) => .ok (earlier, c)
      | (.ok true, c) =>
        db.newRowOn table (c.read db.stores) assignments earlier >>= fun row =>
          newRows db table assignments fuel c (earlier ++ [row]) := by
  rw [newRows]
  rcases c.next db.stores with ⟨_ | more, c⟩
  · rfl
  cases more with
  | false => rfl
  | true => rfl

/-- The pass ends behind the last row. -/
theorem newRows_filtered (toCome : p.ahead (view.rows db.stores) = rest) (enough : rest.length < fuel) :
    newRows db table assignments fuel (filtered view filter p) earlier =
      (·, filtered view filter .exhausted) <$> rest.foldlM (fun earlier id => do
        if ← view.accepts db.stores filter id then
          return earlier ++ [← db.newRow view table assignments earlier id]
        else return earlier) earlier := by
  induction rest generalizing p fuel earlier with
  | nil =>
    obtain ⟨fuel, rfl⟩ := Nat.exists_eq_succ_of_ne_zero (Nat.ne_zero_of_lt enough)
    rw [newRows_succ, next_filtered toCome]
    rfl
  | cons id rest ih =>
    obtain ⟨fuel, rfl⟩ := Nat.exists_eq_succ_of_ne_zero (Nat.ne_zero_of_lt enough)
    have onRow := Position.ahead_onRow toCome
    rw [newRows_succ, next_filtered toCome, Position.sought, List.foldlM_cons]
    cases view.accepts db.stores filter id with
    | error e => rfl
    | ok accepted =>
      cases accepted with
      | false =>
        refine Eq.trans ?_ (ih onRow (Nat.lt_of_succ_lt enough))
        rw [newRows_succ, next_filtered onRow]
      | true =>
        simp only [read_filtered, Checked.ok_bind, if_true, bind_assoc, pure_bind]
        change (db.newRow view table assignments earlier id >>= _) = _
        cases db.newRow view table assignments earlier id with
        | error e => rfl
        | ok row => exact ih onRow (Nat.lt_of_succ_lt_succ enough)

/-! ## The pass that writes -/

theorem runFrom_writeRows_succ (columns : List Column) (fuel : Nat) (c : Cursor) (rows : List (List Value))
    (db : Database) :
    (writeRows columns (fuel + 1) c rows).runFrom db =
      match c.next db.stores, rows with
      | (.error e, _), _ => (.error e, db)
      | (.ok false, _), _ => (.ok (), db)
      | (.ok true, _), [] => (.ok (), db)
      | (.ok true, c), row :: rows =>
        (c.setAll (columns.zip row) >>= fun _ => writeRows columns fuel c rows).runFrom db := by
  rw [writeRows, Move.runFrom_bind_ok (Move.runFrom_get db)]
  rcases c.next db.stores with ⟨_ | more, c⟩
  · rfl
  cases more with
  | false => rfl
  | true =>
    cases rows with
    | nil => rfl
    | cons row rows => rfl

/-- What is written to a row leaves the rows to come where they are, and whether they match is asked when the cursor
comes to them. -/
theorem runFrom_writeRows_filtered (toCome : p.ahead (view.rows db.stores) = rest) (enough : rest.length < fuel) :
    (writeRows columns fuel (filtered view filter p) rows).runFrom db =
      (view.writeRows filter columns rest rows).runFrom db := by
  induction rest generalizing p fuel rows db with
  | nil =>
    obtain ⟨fuel, rfl⟩ := Nat.exists_eq_succ_of_ne_zero (Nat.ne_zero_of_lt enough)
    rw [runFrom_writeRows_succ, next_filtered toCome]
    rfl
  | cons id rest ih =>
    obtain ⟨fuel, rfl⟩ := Nat.exists_eq_succ_of_ne_zero (Nat.ne_zero_of_lt enough)
    have onRow := Position.ahead_onRow toCome
    rw [runFrom_writeRows_succ, next_filtered toCome, Position.sought, TableView.runFrom_writeRows_cons]
    cases view.accepts db.stores filter id with
    | error e => rfl
    | ok accepted =>
      cases accepted with
      | false =>
        refine Eq.trans ?_ (ih onRow (Nat.lt_of_succ_lt enough))
        rw [runFrom_writeRows_succ, next_filtered onRow]
      | true =>
        cases rows with
        | nil => rfl
        | cons row rows =>
          have ids := view.ids_setAll id (columns.zip row) db
          simp only [setAll_filtered, Move.runFrom_bind]
          generalize (view.setAll id (columns.zip row)).runFrom db = outcome at ids
          rcases outcome with ⟨_ | _, db'⟩
          · rfl
          · have onRow' : (Position.onRow id).ahead (view.rows db'.stores) = rest := by
              rw [Position.ahead, ids]
              exact onRow
            exact ih onRow' (Nat.lt_of_succ_lt_succ enough)

/-! ## Both passes -/

/-- Computes new rows for the rows of a cursor and writes them over these, in two passes from the start. -/
def overwrite (c : Cursor) (table : String) (assignments : List Assignment) (columns : List Column) (fuel : Nat) :
    Change Unit := do
  let db ← get
  let c ← c.rewound db.stores
  let (rows, c) ← newRows db table assignments fuel c []
  let c ← c.rewound db.stores
  writeRows columns fuel c rows

theorem runFrom_overwrite_filtered (enough : (view.rows db.stores).ids.length < fuel) :
    ((filtered view filter p).overwrite table assignments columns fuel).runFrom db =
      match db.newRows view table filter assignments with
      | .error e => (.error e, db)
      | .ok rows => (view.writeRows filter columns (view.rows db.stores).ids rows).runFrom db := by
  have toCome := Position.ahead_beforeFirst (view.rows db.stores)
  have first : newRows db table assignments fuel (filtered view filter .beforeFirst) [] =
      (·, filtered view filter .exhausted) <$> db.newRows view table filter assignments :=
    newRows_filtered toCome enough
  rw [overwrite, Move.runFrom_bind_ok (Move.runFrom_get db), rewound_filtered,
    Move.runFrom_bind_ok (Move.runFrom_lift _ db), Move.runFrom_bind, Move.runFrom_lift, first]
  cases db.newRows view table filter assignments with
  | error e => rfl
  | ok rows =>
    change (liftM ((filtered view filter .exhausted).rewound db.stores) >>= _ : Change Unit).runFrom db = _
    rw [rewound_filtered, Move.runFrom_bind_ok (Move.runFrom_lift _ db)]
    exact runFrom_writeRows_filtered toCome enough

end Cursor

/-- The UPDATE by way of a cursor. -/
def Update.sweep (s : Update) : Change Unit := do
  let db ← get
  let columns ← (← db.schema s.table).assigned (s.assignments.map (·.1))
  let view ← db.view s.table none
  let filter ← s.filter.mapM (·.bind view.fieldCheck)
  let c := Cursor.filtered view filter .beforeFirst
  let values ← s.assignments.mapM fun (_, tree) => tree.bind c.fieldCheck
  let assignments := (columns.zip values).map fun (column, value) => Assignment.mk column value
  c.overwrite s.table assignments columns ((view.rows db.stores).size + 1)

/-- It makes no difference whether the ids are looked up once or the next one after each row, in either pass. -/
theorem Update.runFrom_sweep (s : Update) (db : Database) : s.sweep.runFrom db = s.run.runFrom db := by
  have agree : Move.Agree (· = ·) (s.run.runFrom db) (s.sweep.runFrom db) := by
    refine Move.agree_bind_get ?_
    refine Move.agree_bind_lift rfl rfl fun schema _ => ?_
    refine Move.agree_bind_lift rfl rfl fun columns _ => ?_
    refine Move.agree_bind_lift rfl rfl fun view _ => ?_
    refine Move.agree_bind_of_eq (Move.runFrom_optionMapM_lift _ _ _) (Move.runFrom_optionMapM_lift _ _ _) rfl rfl
      fun filter _ => ?_
    refine Move.agree_bind_of_eq (Move.runFrom_mapM_lift _ _ _) (Move.runFrom_mapM_lift _ _ _) ?_ rfl
      fun values _ => ?_
    · simp only [Cursor.fieldCheck_filtered]
    · have enough := (RowStore.length_ids (view.rows db.stores)).trans_lt (Nat.lt_succ_self _)
      rw [Cursor.runFrom_overwrite_filtered enough, Move.runFrom_bind, Move.runFrom_lift]
      cases db.newRows view s.table filter
          ((columns.zip values).map fun (column, value) => Assignment.mk column value) with
      | error e => exact ⟨rfl, rfl⟩
      | ok rows => exact ⟨rfl, rfl⟩
  exact Prod.ext agree.result agree.states.symm

end RelEngine
