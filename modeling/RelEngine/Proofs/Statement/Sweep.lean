import RelEngine.Cursor
import RelEngine.Proofs.Scan.Bounds
import RelEngine.Proofs.Statement.Steps

/-!
A DELETE in one pass of a cursor. Rows disappear under the cursor while it goes on, and still it comes to those
that were there at first, to each of them once.
-/
namespace RelEngine

variable {db : Database} {view : TableView} {stores : Stores} {filter : Option Expr} {p : Position}
  {rest : List RowId} {id : RowId}

/-! ## Seeking in a table -/

/-- What a reader of a table comes to that seeks an accepted row among those with these ids. -/
def Position.sought (accepts : RowId → Checked Bool) : List RowId → Checked Bool × Position
  | [] => (.ok false, .exhausted)
  | id :: rest =>
    match accepts id with
    | .error e => (.error e, .onRow id)
    | .ok true => (.ok true, .onRow id)
    | .ok false => sought accepts rest

theorem Scan.runFrom_seek_table (t : TableView) {accepts : Position → Checked Bool} {fuel : Nat}
    (toCome : p.ahead (t.rows stores) = rest) (enough : rest.length < fuel) :
    (seek ((table t).next stores) accepts fuel).runFrom p =
      Position.sought (fun id => accepts (.onRow id)) rest := by
  induction rest generalizing p fuel with
  | nil =>
    obtain ⟨fuel, rfl⟩ := Nat.exists_eq_succ_of_ne_zero (Nat.ne_zero_of_lt enough)
    rw [runFrom_seek_succ, runFrom_table_next, Position.following?_eq_head?, toCome]
    rfl
  | cons id rest ih =>
    obtain ⟨fuel, rfl⟩ := Nat.exists_eq_succ_of_ne_zero (Nat.ne_zero_of_lt enough)
    rw [runFrom_seek_succ, runFrom_table_next, Position.following?_eq_head?, toCome]
    simp only [List.head?_cons, Option.isSome_some, Position.ofRow?, Position.sought]
    cases accepts (.onRow id) with
    | error e => rfl
    | ok b =>
      cases b with
      | true => rfl
      | false => exact ih (Position.ahead_onRow toCome) (Nat.lt_of_succ_lt_succ enough)

namespace Cursor

/-- The cursor of the rows of a table that fulfil a condition, or of all its rows. -/
def filtered (view : TableView) (filter : Option Expr) (p : Position) : Cursor :=
  match filter with
  | none => ⟨.table view, p⟩
  | some e => ⟨.select (.table view) e, p⟩

/-- The rows to come that do not fulfil the condition are passed. -/
theorem next_filtered (toCome : p.ahead (view.rows stores) = rest) :
    (filtered view filter p).next stores =
      let (result, q) := Position.sought (view.accepts stores filter) rest
      (result, filtered view filter q) := by
  cases filter with
  | none =>
    change (let (result, q) := ((Scan.table view).next stores).runFrom p; (result, filtered view none q)) = _
    rw [Scan.runFrom_table_next, Position.following?_eq_head?, toCome]
    cases rest with
    | nil => rfl
    | cons id rest => rfl
  | some e =>
    have enough : rest.length < (view.rows stores).size + 1 := by
      rw [← toCome, ← RowStore.length_ids]
      exact Nat.lt_succ_of_le (List.length_filter_le p.isBefore _)
    exact congrArg (fun x : Checked Bool × Position => (x.1, filtered view (some e) x.2))
      (Scan.runFrom_seek_table view toCome enough)

theorem remove_filtered (view : TableView) (filter : Option Expr) (id : RowId) (stores : Stores) :
    (filtered view filter (.onRow id)).remove stores =
      .ok (view.remove stores id, filtered view filter (.afterRemoved id)) := by
  cases filter with
  | none => rfl
  | some e => rfl

theorem rewound_filtered (view : TableView) (filter : Option Expr) (p : Position) (stores : Stores) :
    (filtered view filter p).rewound stores = .ok (filtered view filter .beforeFirst) := by
  cases filter with
  | none => rfl
  | some e => rfl

/-- Refuses the removal of the current row if a child needs it. -/
def checkRemoval (c : Cursor) (db : Database) (references : List Reference) : Checked Unit :=
  references.forM fun r => do
    db.checkChildren r (← c.read db.stores r.parentField) .delete

theorem checkRemoval_filtered (view : TableView) (filter : Option Expr) (id : RowId) (db : Database)
    (references : List Reference) :
    (filtered view filter (.onRow id)).checkRemoval db references = db.checkRemoval view references id := by
  cases filter with
  | none => rfl
  | some e => rfl

/-- Removes the rows that a cursor comes to unless they are needed, and no more than `fuel` of them. -/
def sweep (references : List Reference) : Nat → Cursor → Change Unit
  | 0, _ => return
  | fuel + 1, c => do
    let db ← get
    let (more, c) := c.next db.stores
    if ← more then
      c.checkRemoval db references
      let (stores, c) ← c.remove db.stores
      set { db with stores }
      sweep references fuel c

theorem runFrom_sweep_succ (references : List Reference) (fuel : Nat) (c : Cursor) (db : Database) :
    (sweep references (fuel + 1) c).runFrom db =
      match c.next db.stores with
      | (.error e, _) => (.error e, db)
      | (.ok false, _) => (.ok (), db)
      | (.ok true, c) =>
        match c.checkRemoval db references >>= fun _ => c.remove db.stores with
        | .error e => (.error e, db)
        | .ok (stores, c) => (sweep references fuel c).runFrom { db with stores } := by
  rw [sweep, Move.runFrom_bind_ok (Move.runFrom_get db)]
  rcases c.next db.stores with ⟨_ | more, c⟩
  · rfl
  cases more with
  | false => rfl
  | true =>
    simp only [Move.runFrom_bind, Move.runFrom_lift, if_true]
    cases c.checkRemoval db references with
    | error e => rfl
    | ok _ =>
      rw [Checked.ok_bind]
      cases c.remove db.stores with
      | error e => rfl
      | ok after => rfl

end Cursor

/-- A row of a DELETE: it goes if it fulfils the condition and is not needed. -/
def TableView.visit (view : TableView) (filter : Option Expr) (references : List Reference) (id : RowId) :
    Change Unit := do
  let db ← get
  if ← view.accepts db.stores filter id then
    db.checkRemoval view references id
    set { db with stores := view.remove db.stores id }

theorem TableView.runFrom_visit (view : TableView) (filter : Option Expr) (references : List Reference)
    (id : RowId) (db : Database) : (view.visit filter references id).runFrom db =
      match view.accepts db.stores filter id with
      | .error e => (.error e, db)
      | .ok false => (.ok (), db)
      | .ok true =>
        match db.checkRemoval view references id with
        | .error e => (.error e, db)
        | .ok () => (.ok (), db.removeRow view id) := by
  rw [visit, Move.runFrom_bind_ok (Move.runFrom_get db), Move.runFrom_bind, Move.runFrom_lift]
  cases view.accepts db.stores filter id with
  | error e => rfl
  | ok accepted =>
    cases accepted with
    | false => rfl
    | true =>
      simp only [Move.runFrom_bind, Move.runFrom_lift, if_true]
      cases db.checkRemoval view references id with
      | error e => rfl
      | ok _ => rfl

/-- A cursor comes to the rows to come one after the other, although some of them are removed on the way. The
induction is on those rows, over any place of the cursor that they follow. -/
theorem Cursor.runFrom_sweep_filtered (references : List Reference) (inside : view.store < db.stores.length)
    (toCome : p.ahead (view.rows db.stores) = rest) {fuel : Nat} (enough : rest.length < fuel) :
    (sweep references fuel (filtered view filter p)).runFrom db =
      (rest.forM (view.visit filter references)).runFrom db := by
  induction rest generalizing p fuel db with
  | nil =>
    obtain ⟨fuel, rfl⟩ := Nat.exists_eq_succ_of_ne_zero (Nat.ne_zero_of_lt enough)
    rw [runFrom_sweep_succ, next_filtered toCome]
    rfl
  | cons id rest ih =>
    obtain ⟨fuel, rfl⟩ := Nat.exists_eq_succ_of_ne_zero (Nat.ne_zero_of_lt enough)
    rw [runFrom_sweep_succ, next_filtered toCome, List.forM, Move.runFrom_bind, TableView.runFrom_visit,
      Position.sought]
    cases view.accepts db.stores filter id with
    | error e => rfl
    | ok accepted =>
      cases accepted with
      | false =>
        have onRow := Position.ahead_onRow toCome
        refine Eq.trans ?_ (ih inside onRow (Nat.lt_of_succ_lt enough))
        rw [runFrom_sweep_succ, next_filtered onRow]
      | true =>
        simp only [checkRemoval_filtered, remove_filtered]
        cases db.checkRemoval view references id with
        | error e => rfl
        | ok _ =>
          have inside' : view.store < (db.removeRow view id).stores.length := by
            rw [Database.removeRow, Database.length_updateRows]
            exact inside
          have toCome' : Position.ahead (view.rows (db.removeRow view id).stores) (.afterRemoved id) = rest := by
            rw [Database.removeRow, Database.rows_updateRows inside]
            exact Position.ahead_afterRemoved toCome
          exact ih inside' toCome' (Nat.lt_of_succ_lt_succ enough)

/-- The DELETE by way of a cursor. -/
def Delete.sweep (s : Delete) : Change Unit := do
  let db ← get
  let view ← db.view s.table none
  let filter ← s.filter.mapM (·.bind view.fieldCheck)
  let c ← (Cursor.filtered view filter .beforeFirst).rewound db.stores
  c.sweep (db.references.filter (·.parentTable == s.table)) ((view.rows db.stores).size + 1)

/-- A DELETE is refused as a whole, for its table or its condition, or these are found and it comes to the rows. -/
theorem Delete.run_cases (s : Delete) (db : Database) :
    (∃ e, s.run.runFrom db = (.error e, db) ∧ s.sweep.runFrom db = (.error e, db) ∧
      (db.view s.table none = .error e ∨
        ∃ view, db.view s.table none = .ok view ∧ s.filter.mapM (·.bind view.fieldCheck) = .error e)) ∨
    ∃ view filter, db.view s.table none = .ok view ∧ s.filter.mapM (·.bind view.fieldCheck) = .ok filter ∧
      s.run.runFrom db = ((view.rows db.stores).ids.forM
        (view.visit filter (db.references.filter (·.parentTable == s.table)))).runFrom db ∧
      s.sweep.runFrom db = (Cursor.sweep (db.references.filter (·.parentTable == s.table))
        ((view.rows db.stores).size + 1) (Cursor.filtered view filter .beforeFirst)).runFrom db := by
  rw [run, sweep, Move.runFrom_bind_ok (Move.runFrom_get db), Move.runFrom_bind_ok (Move.runFrom_get db)]
  cases isView : db.view s.table none with
  | error e => exact .inl ⟨e, rfl, rfl, .inl rfl⟩
  | ok view =>
    have binds := Move.runFrom_optionMapM_lift (fun tree : Tree => tree.bind view.fieldCheck) s.filter db
    rw [Move.runFrom_bind_ok (Move.runFrom_lift _ db), Move.runFrom_bind_ok (Move.runFrom_lift _ db)]
    cases bound : s.filter.mapM (·.bind view.fieldCheck) with
    | error e =>
      rw [bound] at binds
      exact .inl ⟨e, Move.runFrom_bind_error binds, Move.runFrom_bind_error binds, .inr ⟨view, rfl, bound⟩⟩
    | ok filter =>
      rw [bound] at binds
      refine .inr ⟨view, filter, rfl, bound, Move.runFrom_bind_ok binds, (Move.runFrom_bind_ok binds).trans ?_⟩
      rw [Cursor.rewound_filtered, Move.runFrom_bind_ok (Move.runFrom_lift _ db)]

/-- It makes no difference whether the ids are looked up once or the next one after each row. -/
theorem Delete.runFrom_sweep (placed : db.Placed) (s : Delete) : s.sweep.runFrom db = s.run.runFrom db := by
  rcases s.run_cases db with ⟨e, refused, refused', -⟩ | ⟨view, filter, isView, -, run, sweep⟩
  · rw [refused, refused']
  · obtain ⟨t, isTable, rfl⟩ := Database.view_eq_ok.1 isView
    rw [run, sweep]
    exact Cursor.runFrom_sweep_filtered _ (placed.inside isTable) (Position.ahead_beforeFirst _)
      ((RowStore.length_ids _).trans_lt (Nat.lt_succ_self _))

end RelEngine
