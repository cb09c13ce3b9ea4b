import RelEngine.Plan.Update
import RelEngine.Proofs.Database.Rewrites
import RelEngine.Proofs.Query.Products
import RelEngine.Proofs.Row.Writing

/-!
Writing through a reader reaches the field that reading shows.

A name leads through a plan to a column of one table, unless it is that of a computed field. Reading and writing
go the same way, whatever the plan and wherever its reader stands; on a row of an outer join that stands for a
lack of matches, the way to the inner side ends at no row. The main statement is `Plan.write_exact`.
-/
namespace RelEngine

/-! ## One field of one row -/

namespace TableView

variable {view : TableView} {id : RowId} {name column : String} {value : Value} {stores stores' : Stores}

/-- The write as a change of the bytes of the row where they are. -/
def writeInPlace (view : TableView) (id : Option RowId) (name : String) (value : Value) :
    Move Stores Unit := do
  let column ← view.resolve name
  let some id := id | throw .noCurrentRow
  let some row := (view.rows (← get)).find? id | throw .noCurrentRow
  Move.within (fun _ => row) (fun row stores => stores.update view.store (·.modify id fun _ => row))
    (Row.setInPlace view.schema column value)

theorem runFrom_writeInPlace (view : TableView) (id : Option RowId) (name : String) (value : Value)
    (stores : Stores) :
    (view.writeInPlace id name value).runFrom stores =
      match view.write stores id name value with
      | .ok stores' => (.ok (), stores')
      | .error e => (.error e, stores) := by
  unfold writeInPlace write
  rw [Move.runFrom_bind, Move.runFrom_lift]
  cases view.resolve name with
  | error e => rfl
  | ok column =>
    cases id with
    | none => rfl
    | some id =>
      simp only [Move.runFrom_bind, Move.runFrom_get, Checked.ok_bind]
      cases found : (view.rows stores).find? id with
      | none => rfl
      | some row =>
        simp only [Move.runFrom_within, Row.runFrom_setInPlace]
        cases Row.set view.schema row column value with
        | ok after => rfl
        | error e =>
          -- The row that is put back is the one that was there.
          have same : stores.update view.store (·.modify id fun _ => row) = stores :=
            Stores.update_eq_self (RowStore.modify_eq_self found)
          exact congrArg (Prod.mk _) same

theorem exists_slot (isLocal : view.local? name = some column) :
    ∃ slot, view.schema.slot? column = some slot := by
  have isField : view.has name = true := by
    rw [has, isLocal]
    rfl
  obtain ⟨field, resolved, isColumn⟩ := resolve_of_has isField
  rw [resolve, isLocal] at resolved
  cases resolved
  rw [← Schema.slot?_isSome] at isColumn
  exact Option.isSome_iff_exists.1 isColumn

/-- A write asks for a row, and for a value that the column can hold. -/
theorem write_eq_ok_iff (isLocal : view.local? name = some column) :
    (∃ stores', view.write stores (some id) name value = .ok stores') ↔
      ∃ row slot, (view.rows stores).find? id = some row ∧
        view.schema.slot? column = some slot ∧ slot.column.Takes value := by
  constructor
  · rintro ⟨stores', written⟩
    obtain ⟨field, row, after, isField, found, isSet, -⟩ := write_eq_ok_local written
    cases isLocal.symm.trans isField
    obtain ⟨slot, isSlot⟩ := exists_slot isLocal
    exact ⟨row, slot, found, isSlot, (Row.set_eq_ok_iff isSlot row).1 ⟨after, isSet⟩⟩
  · rintro ⟨row, slot, found, isSlot, takes⟩
    obtain ⟨after, isSet⟩ := (Row.set_eq_ok_iff isSlot row).2 takes
    simp only [write, resolve, isLocal, Checked.ok_bind, found, isSet]
    exact ⟨_, rfl⟩

/-- The stores after a write into one field of one row. -/
structure Wrote (view : TableView) (id : RowId) (column : String) (value : Value)
    (stores stores' : Stores) : Prop where
  length : stores'.length = stores.length
  others : ∀ store ≠ view.store, stores'.rowsAt store = stores.rowsAt store
  ids : (view.rows stores').ids = (view.rows stores).ids
  nextId : (view.rows stores').nextId = (view.rows stores).nextId
  rows : ∀ other ≠ id, (view.rows stores').find? other = (view.rows stores).find? other
  row : ∃ row after, (view.rows stores).find? id = some row ∧
    (view.rows stores').find? id = some after ∧ Row.Wrote view.schema column value row after

theorem wrote_of_write (sized : ∀ c ∈ view.schema.columns, c.Sized)
    (whole : ∀ row, (view.rows stores).find? id = some row → row.length = view.schema.rowSize)
    (isLocal : view.local? name = some column)
    (h : view.write stores (some id) name value = .ok stores') :
    view.Wrote id column value stores stores' := by
  obtain ⟨field, row, after, isField, found, isSet, rfl⟩ := write_eq_ok_local h
  cases isLocal.symm.trans isField
  have now : view.rows (stores.update view.store (·.modify id fun _ => after)) =
      (view.rows stores).modify id fun _ => after :=
    Stores.rowsAt_update_self _ (Stores.inside_of_find? found)
  constructor
  · exact Stores.length_update _
  · intro store differ
    exact Stores.rowsAt_update_of_ne _ differ
  · rw [now, RowStore.ids_modify]
  · rw [now]
    rfl
  · intro other differ
    rw [now, RowStore.find?_modify_of_ne _ differ]
  · refine ⟨row, after, found, ?_, Row.wrote_of_set sized (whole row found) isSet⟩
    rw [now, RowStore.find?_modify_self, found]
    rfl

theorem read_of_wrote (isLocal : view.local? name = some column)
    (h : view.Wrote id column value stores stores') :
    view.read stores' (some id) name = .ok value := by
  obtain ⟨row, after, _, found, wrote⟩ := h.row
  rw [read, resolve, isLocal, Checked.ok_bind, Option.bind_some, found]
  exact wrote.field

/-- Without a row a field reads as NULL. -/
theorem read_none (isLocal : view.local? name = some column) :
    view.read stores none name = .ok none := by
  rw [read, resolve, isLocal]
  rfl

theorem write_none (isLocal : view.local? name = some column) :
    view.write stores none name value = .error .noCurrentRow := by
  rw [write, resolve, isLocal]
  rfl

end TableView

/-! ## Where a name leads -/

/-- A column of a table, and the row of it that a reader is on, if it is on one. -/
structure Target where
  view : TableView
  row : Option RowId
  column : String

/-- The bytes of the row are those that the table's columns take. -/
structure Target.Fits (t : Target) (stores : Stores) : Prop where
  sized : ∀ c ∈ t.view.schema.columns, c.Sized
  whole : ∀ id row, t.row = some id → (t.view.rows stores).find? id = some row →
    row.length = t.view.schema.rowSize

namespace Plan

/-- What a name stands for at a place in a plan, unless it is a computed field or no field at all. Below an outer
join without a match there is no inner row. -/
def target? : (plan : Plan) → plan.State → String → Option Target
  | .table view, position, field =>
    (view.local? field).map fun column => ⟨view, Position.rowId? position, column⟩
  | .product left right, (s : ProductState left.State right.State), field =>
    if left.has field then left.target? s.left field else right.target? s.right field
  | .select child _, s, field => child.target? s field
  | .join outer inner _ flipped, (s : JoinState outer.State inner.State), field =>
    if readsInner outer inner flipped field then
      (inner.target? s.inner field).map fun t => if s.innerNull then { t with row := none } else t
    else outer.target? s.outer field
  | .extend child _ name, s, field => if field == name then none else child.target? s field
  | .single _ _, _, _ => none
  | .project child fields, s, field => if fields.contains field then child.target? s field else none

variable {stores : Stores} {field : String} {value : Value}

theorem local?_of_target {t : Target} : (plan : Plan) → (s : plan.State) → plan.target? s field = some t →
    t.view.local? field = some t.column
  | .table view, position, h => by
    obtain ⟨column, isLocal, rfl⟩ := Option.map_eq_some_iff.1 h
    exact isLocal
  | .product left right, (s : ProductState left.State right.State), h => by
    rw [target?] at h
    split at h
    · exact local?_of_target left s.left h
    · exact local?_of_target right s.right h
  | .select child _, s, h => local?_of_target child s h
  | .join outer inner _ flipped, (s : JoinState outer.State inner.State), h => by
    rw [target?] at h
    split at h
    · obtain ⟨inside, isInner, rfl⟩ := Option.map_eq_some_iff.1 h
      have isLocal := local?_of_target inner s.inner isInner
      split
      · exact isLocal
      · exact isLocal
    · exact local?_of_target outer s.outer h
  | .extend child _ name, s, h => by
    rw [target?] at h
    split at h
    · cases h
    · exact local?_of_target child s h
  | .project child fields, s, h => by
    rw [target?] at h
    split at h
    · exact local?_of_target child s h
    · cases h

theorem has_of_target {t : Target} : (plan : Plan) → (s : plan.State) → plan.target? s field = some t →
    plan.has field = true
  | .table view, position, h => by
    obtain ⟨column, isLocal, rfl⟩ := Option.map_eq_some_iff.1 h
    change (view.local? field).isSome = true
    rw [isLocal, Option.isSome_some]
  | .product left right, (s : ProductState left.State right.State), h => by
    change (left.has field || right.has field) = true
    rw [target?] at h
    split at h
    · next isLeft => rw [isLeft, Bool.true_or]
    · rw [has_of_target right s.right h, Bool.or_true]
  | .select child _, s, h => has_of_target child s h
  | .join outer inner _ flipped, (s : JoinState outer.State inner.State), h => by
    change (outer.has field || inner.has field) = true
    rw [target?] at h
    split at h
    · next isInner => rw [has_of_readsInner isInner, Bool.or_true]
    · rw [has_of_target outer s.outer h, Bool.true_or]
  | .extend child _ name, s, h => by
    change (field == name || child.has field) = true
    rw [target?] at h
    split at h
    · cases h
    · rw [has_of_target child s h, Bool.or_true]
  | .project child fields, s, h => by
    change (fields.contains field && child.has field) = true
    rw [target?] at h
    split at h
    · next shown => rw [shown, has_of_target child s h, Bool.true_and]
    · cases h

theorem read_of_target {t : Target} : (plan : Plan) → (s : plan.State) → plan.target? s field = some t →
    plan.read stores s field = t.view.read stores t.row field
  | .table view, position, h => by
    obtain ⟨column, isLocal, rfl⟩ := Option.map_eq_some_iff.1 h
    rfl
  | .product left right, (s : ProductState left.State right.State), h => by
    change (if left.has field then left.read stores s.left field else right.read stores s.right field) = _
    rw [target?] at h
    split at h
    · next isLeft => rw [if_pos isLeft, read_of_target left s.left h]
    · next isRight => rw [if_neg isRight, read_of_target right s.right h]
  | .select child _, s, h => read_of_target child s h
  | .join outer inner _ flipped, (s : JoinState outer.State inner.State), h => by
    change (if readsInner outer inner flipped field && s.innerNull then .ok none
      else if readsInner outer inner flipped field then inner.read stores s.inner field
      else outer.read stores s.outer field) = _
    rw [target?] at h
    split at h
    · next isInner =>
      obtain ⟨inside, isTarget, rfl⟩ := Option.map_eq_some_iff.1 h
      rw [isInner, Bool.true_and, if_pos rfl]
      split
      · exact (TableView.read_none (local?_of_target inner s.inner isTarget)).symm
      · exact read_of_target inner s.inner isTarget
    · next isOuter =>
      rw [Bool.not_eq_true] at isOuter
      rw [isOuter, Bool.false_and]
      exact read_of_target outer s.outer h
  | .extend child value name, s, h => by
    change (if field == name then value.eval stores (child.read stores s)
      else child.read stores s field) = _
    rw [target?] at h
    split at h
    · cases h
    · next notComputed => rw [if_neg notComputed, read_of_target child s h]
  | .project child fields, s, h => by
    change (if fields.contains field then child.read stores s field else _) = _
    rw [target?] at h
    split at h
    · next shown => rw [if_pos shown, read_of_target child s h]
    · cases h

theorem write_of_target {t : Target} : (plan : Plan) → (s : plan.State) →
    plan.target? s field = some t →
    plan.write stores s field value = t.view.write stores t.row field value
  | .table view, position, h => by
    obtain ⟨column, isLocal, rfl⟩ := Option.map_eq_some_iff.1 h
    rfl
  | .product left right, (s : ProductState left.State right.State), h => by
    rw [target?] at h
    rw [write]
    split at h
    · next isLeft => rw [if_pos isLeft, write_of_target left s.left h]
    · next isRight =>
      rw [if_neg isRight, if_pos (has_of_target right s.right h), write_of_target right s.right h]
  | .select child _, s, h => write_of_target child s h
  | .join outer inner _ flipped, (s : JoinState outer.State inner.State), h => by
    rw [target?] at h
    rw [write]
    split at h
    · next isInner =>
      obtain ⟨inside, isTarget, rfl⟩ := Option.map_eq_some_iff.1 h
      rw [readsInner] at isInner
      rw [if_pos isInner]
      split
      · exact (TableView.write_none (local?_of_target inner s.inner isTarget)).symm
      · exact write_of_target inner s.inner isTarget
    · next isOuter =>
      rw [readsInner] at isOuter
      rw [if_neg isOuter, write_of_target outer s.outer h]
  | .extend child _ name, s, h => by
    rw [target?] at h
    rw [write]
    split at h
    · cases h
    · next notComputed => rw [if_neg notComputed, write_of_target child s h]
  | .project child fields, s, h => by
    rw [target?] at h
    rw [write]
    split at h
    · next shown => rw [if_pos shown, write_of_target child s h]
    · cases h

/-- A name that leads nowhere is that of a computed field, or of none. A write there changes nothing. -/
theorem write_of_no_target {stores' : Stores} : (plan : Plan) → (s : plan.State) →
    plan.target? s field = none → plan.write stores s field value = .ok stores' → stores' = stores
  | .table view, position, h, written => by
    have nowhere : view.local? field = none := Option.map_eq_none_iff.1 h
    rw [write, TableView.write, TableView.resolve, nowhere] at written
    cases written
  | .product left right, (s : ProductState left.State right.State), h, written => by
    rw [target?] at h
    rw [write] at written
    split at h
    · next isLeft =>
      rw [if_pos isLeft] at written
      exact write_of_no_target left s.left h written
    · next isRight =>
      rw [if_neg isRight] at written
      split at written
      · exact write_of_no_target right s.right h written
      · cases written
  | .select child _, s, h, written => write_of_no_target child s h written
  | .join outer inner _ flipped, (s : JoinState outer.State inner.State), h, written => by
    rw [target?, readsInner] at h
    rw [write] at written
    split at h
    · next isInner =>
      rw [if_pos isInner] at written
      split at written
      · cases written
      · exact write_of_no_target inner s.inner (Option.map_eq_none_iff.1 h) written
    · next isOuter =>
      rw [if_neg isOuter] at written
      exact write_of_no_target outer s.outer h written
  | .extend child _ name, s, h, written => by
    rw [target?] at h
    rw [write] at written
    split at h
    · next isComputed =>
      rw [if_pos isComputed] at written
      exact (Except.ok.inj written).symm
    · next notComputed =>
      rw [if_neg notComputed] at written
      exact write_of_no_target child s h written
  | .single _ name, s, h, written => by
    rw [write] at written
    split at written
    · exact (Except.ok.inj written).symm
    · cases written
  | .project child fields, s, h, written => by
    rw [target?] at h
    rw [write] at written
    split at h
    · next shown =>
      rw [if_pos shown] at written
      exact write_of_no_target child s h written
    · next hidden =>
      rw [if_neg hidden] at written
      cases written

/-! ## In place -/

/-- The write as a change of the tables below the reader where they are. -/
def writeInPlace : (plan : Plan) → plan.State → String → Value → Move Stores Unit
  | .table view, position, field, value => view.writeInPlace (Position.rowId? position) field value
  | .product left right, (s : ProductState left.State right.State), field, value =>
    if left.has field then left.writeInPlace s.left field value
    else if right.has field then right.writeInPlace s.right field value
    else throw (.fieldNotFound field)
  | .select child _, s, field, value => child.writeInPlace s field value
  | .join outer inner _ flipped, (s : JoinState outer.State inner.State), field, value =>
    if readsInner outer inner flipped field then
      if s.innerNull then throw .noCurrentRow else inner.writeInPlace s.inner field value
    else outer.writeInPlace s.outer field value
  | .extend child _ name, s, field, value =>
    if field == name then pure () else child.writeInPlace s field value
  | .single _ name, _, field, _ =>
    if field == name then pure () else throw (.fieldNotFound field)
  | .project child fields, s, field, value =>
    if fields.contains field then child.writeInPlace s field value
    else throw (.fieldNotFound field)

theorem runFrom_writeInPlace (stores : Stores) (field : String) (value : Value) :
    (plan : Plan) → (s : plan.State) → (plan.writeInPlace s field value).runFrom stores =
      match plan.write stores s field value with
      | .ok stores' => (.ok (), stores')
      | .error e => (.error e, stores)
  | .table view, position =>
    view.runFrom_writeInPlace (Position.rowId? position) field value stores
  | .product left right, (s : ProductState left.State right.State) => by
    rw [writeInPlace, write]
    split
    · exact runFrom_writeInPlace stores field value left s.left
    · split
      · exact runFrom_writeInPlace stores field value right s.right
      · rfl
  | .select child _, s => runFrom_writeInPlace stores field value child s
  | .join outer inner _ flipped, (s : JoinState outer.State inner.State) => by
    rw [writeInPlace, write, readsInner]
    split
    · split
      · rfl
      · exact runFrom_writeInPlace stores field value inner s.inner
    · exact runFrom_writeInPlace stores field value outer s.outer
  | .extend child _ name, s => by
    rw [writeInPlace, write]
    split
    · rfl
    · exact runFrom_writeInPlace stores field value child s
  | .single _ name, s => by
    rw [writeInPlace, write]
    split
    · rfl
    · rfl
  | .project child fields, s => by
    rw [writeInPlace, write]
    split
    · exact runFrom_writeInPlace stores field value child s
    · rfl

/-! ## Writing and reading -/

variable {plan : Plan} {s : plan.State} {t : Target} {stores' : Stores}

theorem wrote_of_write (leads : plan.target? s field = some t) (fits : t.Fits stores)
    (h : plan.write stores s field value = .ok stores') :
    ∃ id, t.row = some id ∧ t.view.Wrote id t.column value stores stores' := by
  have isLocal := local?_of_target plan s leads
  rw [write_of_target plan s leads] at h
  cases onRow : t.row with
  | none =>
    rw [onRow, TableView.write_none isLocal] at h
    cases h
  | some id =>
    rw [onRow] at h
    exact ⟨id, rfl, TableView.wrote_of_write fits.sized (fun row => fits.whole id row onRow) isLocal h⟩

theorem read_of_write (leads : plan.target? s field = some t) (fits : t.Fits stores)
    (h : plan.write stores s field value = .ok stores') : plan.read stores' s field = .ok value := by
  obtain ⟨id, onRow, wrote⟩ := wrote_of_write leads fits h
  rw [read_of_target plan s leads, onRow]
  exact TableView.read_of_wrote (local?_of_target plan s leads) wrote

theorem write_eq_ok_iff (leads : plan.target? s field = some t) :
    (∃ stores', plan.write stores s field value = .ok stores') ↔
      ∃ id row slot, t.row = some id ∧ (t.view.rows stores).find? id = some row ∧
        t.view.schema.slot? t.column = some slot ∧ slot.column.Takes value := by
  have isLocal := local?_of_target plan s leads
  rw [write_of_target plan s leads]
  cases onRow : t.row with
  | none =>
    rw [TableView.write_none isLocal]
    constructor
    · rintro ⟨_, ⟨⟩⟩
    · rintro ⟨_, _, _, ⟨⟩, _⟩
  | some id =>
    rw [TableView.write_eq_ok_iff isLocal]
    simp only [Option.some.injEq, exists_and_left, exists_eq_left']

/-- A write to a field of a table succeeds if the table's own reader is on a row and the column can hold the
value. The same reader then reads what was written, and in all tables the one field of that one row has
changed. A write that fails has changed nothing; without a row it fails for that. The inner side of an outer
join has no row where the current one stands for a lack of matches. -/
theorem write_exact (leads : plan.target? s field = some t) (fits : t.Fits stores) (value : Value) :
    ((∃ stores', plan.write stores s field value = .ok stores') ↔
      ∃ id row slot, t.row = some id ∧ (t.view.rows stores).find? id = some row ∧
        t.view.schema.slot? t.column = some slot ∧ slot.column.Takes value) ∧
    (∀ stores', plan.write stores s field value = .ok stores' →
      plan.read stores' s field = .ok value ∧
      (∃ id, t.row = some id ∧ t.view.Wrote id t.column value stores stores') ∧
      (plan.writeInPlace s field value).runFrom stores = (.ok (), stores')) ∧
    (∀ e, plan.write stores s field value = .error e →
      (plan.writeInPlace s field value).runFrom stores = (.error e, stores)) ∧
    (t.row = none → plan.write stores s field value = .error .noCurrentRow) ∧
    ∀ (outer inner : Plan) (predicate : Expr) (flipped : Bool)
      (s : JoinState outer.State inner.State), s.innerNull = true →
      readsInner outer inner flipped field = true →
      (Plan.join outer inner predicate flipped).write stores s field value =
        .error .noCurrentRow := by
  have inPlace := runFrom_writeInPlace stores field value plan s
  constructor
  · exact write_eq_ok_iff leads
  constructor
  · intro stores' written
    rw [written] at inPlace
    exact ⟨read_of_write leads fits written, wrote_of_write leads fits written, inPlace⟩
  constructor
  · intro e failed
    rw [failed] at inPlace
    exact inPlace
  constructor
  · intro noRow
    rw [write_of_target plan s leads, noRow]
    exact TableView.write_none (local?_of_target plan s leads)
  · intro outer inner predicate flipped s isNull isInner
    rw [readsInner] at isInner
    rw [write, if_pos isInner, if_pos isNull]

/-- A table of two rows under two names. -/
def twice : Plan :=
  .join (.table ⟨"a", .ofColumns [.plain "x" .int 0], 0⟩) (.table ⟨"b", .ofColumns [.plain "x" .int 0], 0⟩)
    (.const (Value.ofBool true)) false

def twiceStores : Stores :=
  let blank := Row.blank (.ofColumns [.plain "x" .int 0])
  [RowStore.ofEntries [(0, blank), (1, blank)]]

/-- The outer reader is on the first row, the inner one on the second, or there was no match. -/
def twiceAt (innerNull : Bool) : twice.State :=
  JoinState.mk (Position.onRow 0) (Position.onRow 1) true true innerNull

/-- The row of the inner reader is written if there is a match. -/
theorem write_exact_twice :
    (∃ stores', twice.write twiceStores (twiceAt false) "b.x" (some (.int 7)) = .ok stores' ∧
      twice.read stores' (twiceAt false) "b.x" = .ok (some (.int 7))) ∧
    twice.write twiceStores (twiceAt true) "b.x" (some (.int 7)) = .error .noCurrentRow := by
  let view : TableView := ⟨"b", .ofColumns [.plain "x" .int 0], 0⟩
  have sized : ∀ c ∈ view.schema.columns, c.Sized := by decide
  constructor
  · have leads : twice.target? (twiceAt false) "b.x" = some ⟨view, some 1, "x"⟩ := by rfl
    have fits : (Target.mk view (some 1) "x").Fits twiceStores := by
      refine ⟨sized, ?_⟩
      rintro _ row ⟨⟩ found
      cases found
      decide
    have takes : (twice.write twiceStores (twiceAt false) "b.x" (some (.int 7))).isOk := by
      decide +kernel
    cases written : twice.write twiceStores (twiceAt false) "b.x" (some (.int 7)) with
    | error e =>
      rw [written] at takes
      cases takes
    | ok stores' => exact ⟨stores', rfl, ((write_exact leads fits _).2.1 stores' written).1⟩
  · have leads : twice.target? (twiceAt true) "b.x" = some ⟨view, none, "x"⟩ := by rfl
    have fits : (Target.mk view none "x").Fits twiceStores := ⟨sized, nofun⟩
    exact (write_exact leads fits _).2.2.2.1 rfl

end Plan

end RelEngine
