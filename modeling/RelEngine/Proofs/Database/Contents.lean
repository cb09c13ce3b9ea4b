import RelEngine.Proofs.Parallel
import RelEngine.Proofs.Plan.Reading
import RelEngine.Proofs.RowStore
import RelEngine.Statement.Constraints
import RelEngine.Statement.DropTable
import RelEngine.Statement.Filter

/-!
What checks see of a table: its columns and its packed rows in order. Under which ids the rows stand, and
where the table keeps them, makes no difference.
-/
namespace RelEngine

namespace RowStore

/-- The packed rows in the order of their ids. -/
def contents (s : RowStore) : List Bytes := s.rows.entries.map (·.2)

theorem forall₂_contents (s : RowStore) :
    List.Forall₂ (fun id row => s.find? id = some row) s.ids s.contents := by
  rw [ids, contents, SortedMap.keys, List.forall₂_map_left_iff, List.forall₂_map_right_iff,
    List.forall₂_same]
  rintro ⟨id, row⟩ mem
  exact SortedMap.find?_of_mem mem

end RowStore

namespace TableView

variable {t : TableView} {stores : Stores} {id : RowId} {row : Bytes}

/-- A field of a packed row. -/
def readRow (t : TableView) (row : Bytes) : Record := fun name => do
  Row.get t.schema row (← t.resolve name)

theorem read_eq_readRow (found : (t.rows stores).find? id = some row) :
    t.read stores (some id) = t.readRow row := by
  funext name
  simp only [read, readRow, Option.bind_some, found]

/-- The row with a field changed, if there is a row. -/
def changed (t : TableView) (row? : Option Bytes) (name : String) (value : Value) : Checked Bytes := do
  let field ← t.resolve name
  let some row := row? | throw .noCurrentRow
  Row.set t.schema row field value

theorem write_eq (t : TableView) (stores : Stores) (id : RowId) (name : String) (value : Value) :
    t.write stores (some id) name value = do
      let row ← t.changed ((t.rows stores).find? id) name value
      return stores.update t.store (·.modify id fun _ => row) := by
  unfold write changed
  cases t.resolve name with
  | error e => rfl
  | ok field =>
    cases found : (t.rows stores).find? id with
    | none =>
      simp only [Checked.ok_bind, found]
      rfl
    | some row => simp only [Checked.ok_bind, found]

/-- Whether one of the rows holds a value equal to `value` under `field`. -/
def holdsAmong (t : TableView) (rows : List Bytes) (field : String) (value : Value) : Checked Bool :=
  rows.anyM fun row => do
    return (← Value.relate .eq value (← t.readRow row field)).isTrue

theorem holds_eq_holdsAmong (t : TableView) (stores : Stores) (field : String) (value : Value) :
    t.holds stores field value = t.holdsAmong (t.rows stores).contents field value := by
  symm
  apply Checked.anyM_eq_of_forall₂
  refine (t.rows stores).forall₂_contents.imp fun id row found => ?_
  rw [read_eq_readRow found]

theorem rows_table_eq (t : TableView) (stores : Stores) :
    (Plan.table t).rows stores = (t.rows stores).contents.map t.readRow := by
  rw [Plan.rows]
  have each := (t.rows stores).forall₂_contents
  generalize (t.rows stores).ids = ids at each
  generalize (t.rows stores).contents = rows at each
  induction each with
  | nil => rfl
  | cons found _ ih => rw [List.map_cons, List.map_cons, ih, read_eq_readRow found]

end TableView

/-! ## Dependent rows -/

/-- If the reading itself cannot fail, seeking comes to what asking the rows in turn comes to. -/
theorem Follows.fst_seek {σ ρ : Type} {next : Move σ Bool} {look : σ → ρ} {s : σ} {rows : List ρ}
    {fuel : Nat} (h : Follows next look (fun _ => False) s rows) (accepts : ρ → Checked Bool)
    (enough : rows.length < fuel) :
    ((RelEngine.seek next (fun s => accepts (look s)) fuel).runFrom s).1 = rows.anyM accepts := by
  induction h generalizing fuel with
  | done last _ =>
    obtain ⟨fuel, rfl⟩ := Nat.exists_eq_succ_of_ne_zero (Nat.ne_zero_of_lt enough)
    rw [RelEngine.seek, Move.runFrom_bind_ok last]
    rfl
  | @row s t rest moved _ ih =>
    obtain ⟨fuel, rfl⟩ := Nat.exists_eq_succ_of_ne_zero (Nat.ne_zero_of_lt enough)
    rw [RelEngine.seek, Move.runFrom_bind_ok moved, List.anyM]
    simp only [↓reduceIte, Move.runFrom_bind, Move.runFrom_get, Move.runFrom_lift]
    cases accepts (look t) with
    | error e => rfl
    | ok b =>
      cases b with
      | true => rfl
      | false => exact ih (Nat.lt_of_succ_lt_succ enough)
  | failed _ impossible => exact impossible.elim

theorem Scan.hasRow_select {σ : Type} {child : Scan σ} {stores : Stores} {rows : List Record}
    (h : child.Lists stores rows fun _ => False) (bound : rows.length ≤ child.rowBound stores)
    (accepts : Condition) : (child.select accepts).hasRow stores = rows.anyM (accepts stores) := by
  cases h with
  | failed e _ impossible => exact impossible.elim
  | ready start rewinds follows =>
    rw [Scan.hasRow]
    change ((do child.rewind stores; (child.select accepts).next stores : Move σ Bool).runFrom
      child.start).1 = _
    rw [Move.runFrom_bind_ok (rewinds child.start)]
    exact follows.fst_seek (accepts stores) (Nat.lt_succ_of_le bound)

/-- Whether a parent row and a child row are connected by the reference. -/
def Reference.connects (r : Reference) (parent child : TableView) (p c : Bytes) : Checked Bool := do
  let row := Record.pair parent.has (parent.readRow p) (child.readRow c)
  let found ← Value.relate .eq (← row ("slave." ++ r.childField)) (← row ("master." ++ r.parentField))
  return found.isTrue

/-- Dependent rows are sought among all pairs of rows. -/
theorem Database.hasDependentRow_eq (db : Database) (r : Reference) :
    db.hasDependentRow r = (do
      let parent ← db.view r.parentTable (some "master")
      let child ← db.view r.childTable (some "slave")
      let pairs := (parent.rows db.stores).contents.flatMap fun p =>
        (child.rows db.stores).contents.map fun c => (p, c)
      pairs.anyM fun e => r.connects parent child e.1 e.2) := by
  rw [hasDependentRow]
  refine congrArg (_ >>= ·) (funext fun parent => ?_)
  refine congrArg (_ >>= ·) (funext fun child => ?_)
  have lists := (Plan.product (.table parent) (.table child)).lists db.stores
  have bound := (Plan.product (.table parent) (.table child)).length_rows_le db.stores
  have noFailure : ∀ e, (Plan.product (.table parent) (.table child)).Fails db.stores e → False := by
    rintro e (impossible | impossible)
    · exact impossible
    · exact impossible
  refine (Scan.hasRow_select (lists.weaken noFailure) bound _).trans ?_
  rw [Plan.rows, TableView.rows_table_eq, TableView.rows_table_eq, List.flatMap_map]
  have pairs : ((parent.rows db.stores).contents.flatMap fun p =>
      ((child.rows db.stores).contents.map child.readRow).map fun record =>
        Record.pair (Plan.table parent).has (parent.readRow p) record) =
      ((parent.rows db.stores).contents.flatMap fun p =>
        (child.rows db.stores).contents.map fun c => (p, c)).map fun e =>
          Record.pair parent.has (parent.readRow e.1) (child.readRow e.2) := by
    rw [List.map_flatMap]
    simp only [List.map_map]
    rfl
  rw [pairs]
  apply Checked.anyM_eq_of_forall₂
  rw [List.forall₂_map_right_iff, List.forall₂_same]
  intro e _
  simp only [Reference.connects, Expr.eval, bind_assoc]

end RelEngine
