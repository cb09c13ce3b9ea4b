import RelEngine.Cursor
import RelEngine.Proofs.Checked
import RelEngine.Proofs.Scan.Bounds

/-!
Cursors that are at their end. Each kind of reader remembers the end in its own way: a table by its position, a
product and a join by a flag of their outer loop, the others by what they read from. None of them looks at rows
again before it goes back to its start, so rows that come later do not bring it back.
-/
namespace RelEngine

namespace Scan

variable {α β : Type} {stores : Stores}

/-! ## Where readers end -/

theorem table_ended {t : TableView} {p q : Position}
    (ended : ((table t).next stores).runFrom p = (.ok false, q)) : q = .exhausted := by
  rw [runFrom_table_next] at ended
  cases following : p.following? (t.rows stores) with
  | none =>
    rw [following] at ended
    cases ended
    rfl
  | some id =>
    rw [following] at ended
    cases ended

/-- A product ends with its left side, or where the right side is empty. -/
theorem product_ended {left : Scan α} {right : Scan β} {s t : ProductState α β}
    (ended : ((left.product right).next stores).runFrom s = (.ok false, t)) : t.leftOnRow = false := by
  obtain ⟨l, r, onRow⟩ := s
  cases onRow with
  | false =>
    cases ended
    rfl
  | true =>
    rcases product_next_eq_ok ended with ⟨_, _, ⟨⟩, _⟩ | ⟨_, _, _, advanced, _, _, ⟨_, _, rfl⟩ | ⟨_, _, _, rfl⟩⟩
    · rfl
    · rfl

namespace Join

variable {j : Join α β} {s t : JoinState α β}

/-- A join ends only with its outer side: an outer row that was not given yet has a row to give. -/
theorem next_ended (ended : (j.next stores).runFrom s = (.ok false, t)) : t.outerOnRow = false := by
  obtain ⟨o, i, onRow, matched, null⟩ := s
  cases onRow with
  | false =>
    cases ended
    rfl
  | true =>
    rcases next_eq_ok ended with ⟨_, ⟨⟩, _⟩ | ⟨i', resumed⟩
    obtain ⟨o', i', advanced, _, moved⟩ := resume_eq_ok resumed
    cases advanced with
    | true =>
      obtain ⟨⟨⟩, _⟩ := fresh_eq_ok moved
    | false =>
      cases moved
      rfl

end Join

end Scan

namespace Plan

variable {stores : Stores}

/-- No more rows, whatever becomes of the tables. -/
def Finished : (plan : Plan) → plan.State → Prop
  | .table _, (position : Position) => position = .exhausted
  | .product _ _, s => ProductState.leftOnRow s = false
  | .select child _, s => child.Finished s
  | .join _ _ _ _, s => JoinState.outerOnRow s = false
  | .extend child _ _, s => child.Finished s
  | .single _ _, (pending : Bool) => pending = false
  | .project child _, s => child.Finished s

/-- At its end a reader finds no row and stays where it is. -/
theorem next_of_finished (stores : Stores) : (plan : Plan) → {s : plan.State} → plan.Finished s →
    (plan.scan.next stores).runFrom s = (.ok false, s)
  | .table view, _, h => by
    cases h
    rfl
  | .product left right, ⟨_, _, _⟩, h => by
    cases h
    rfl
  | .select child predicate, _, h => seek_at_end (child.next_of_finished stores h) _
  | .join outer inner predicate flipped, ⟨_, _, _, _, _⟩, h => by
    cases h
    rfl
  | .extend child _ _, _, h => child.next_of_finished stores h
  | .single _ _, _, h => by
    cases h
    rfl
  | .project child _, _, h => child.next_of_finished stores h

/-- A reader that finds no more rows is at its end. A selection can rely on the number of rows that is announced
by what it reads from: it does not stop seeking before that is at its end. -/
theorem finished_of_next : (plan : Plan) → {s t : plan.State} →
    (plan.scan.next stores).runFrom s = (.ok false, t) → plan.Finished t
  | .table _, _, _, ended => Scan.table_ended ended
  | .product _ _, _, _, ended => Scan.product_ended ended
  | .select child _, s, _, ended => by
    obtain ⟨_, last⟩ := (child.bounded stores s).seek_ended (Nat.lt_succ_self _) ended
    exact child.finished_of_next last
  | .join _ _ _ _, _, _, ended => Scan.Join.next_ended ended
  | .extend child _ _, _, _, ended => child.finished_of_next ended
  | .single _ _, _, _, ended => by
    cases ended
    rfl
  | .project child _, _, _, ended => child.finished_of_next ended

theorem finished_close : (plan : Plan) → (s : plan.State) → plan.Finished (plan.close s)
  | .table _, _ => rfl
  | .product _ _, _ => rfl
  | .select child _, s => child.finished_close s
  | .join _ _ _ _, _ => rfl
  | .extend child _ _, s => child.finished_close s
  | .single _ _, _ => rfl
  | .project child _, s => child.finished_close s

/-- Where there is no row, none is removed; a reader of two others removes nothing anyway. -/
theorem finished_remove : (plan : Plan) → {s t : plan.State} → {stores' : Stores} → plan.Finished s →
    plan.remove stores s = .ok (stores', t) → plan.Finished t
  | .table view, _, _, _, h, removed => by
    cases h
    cases removed
  | .product left right, _, _, _, h, removed => by
    cases removed
    exact h
  | .select child _, _, _, _, h, removed => child.finished_remove h removed
  | .join outer inner _ _, _, _, _, h, removed => by
    cases removed
    exact h
  | .extend child _ _, _, _, _, h, removed => child.finished_remove h removed
  | .single _ _, _, _, _, h, removed => by
    cases removed
    exact h
  | .project child _, _, _, _, h, removed => child.finished_remove h removed

end Plan

namespace Cursor

/-- The cursor with another predicate, if it is a selection or a join. -/
def withPredicate (c : Cursor) (predicate : Expr) : Cursor :=
  match c with
  | ⟨.select child _, s⟩ => ⟨.select child predicate, s⟩
  | ⟨.join outer inner _ flipped, s⟩ => ⟨.join outer inner predicate flipped, s⟩
  | c => c

/-- What is done to a cursor other than that it goes back to its start or adds a row, and what others do to the
rows under it. -/
inductive Call where
  | next
  | read (field : String)
  | write (field : String) (value : Value)
  | remove
  | setPredicate (predicate : Expr)
  | close
  /-- The rows of all tables become these, whatever they were. -/
  | elsewhere (stores : Stores)

/-- The rows and the cursor after a call. A step that fails has moved; a write or a removal that fails leaves
both as they were. -/
def Call.perform : Call → Stores × Cursor → Stores × Cursor
  | next, (stores, c) => (stores, (c.next stores).2)
  | read _, (stores, c) => (stores, c)
  | write field value, (stores, c) =>
    match c.write stores field value with
    | .ok stores => (stores, c)
    | .error _ => (stores, c)
  | remove, (stores, c) =>
    match c.remove stores with
    | .ok after => after
    | .error _ => (stores, c)
  | setPredicate predicate, (stores, c) => (stores, c.withPredicate predicate)
  | close, (stores, c) => (stores, c.close)
  | elsewhere stores, (_, c) => (stores, c)

def Finished (c : Cursor) : Prop := c.plan.Finished c.state

variable {c : Cursor} {stores : Stores}

theorem Finished.next (h : c.Finished) (stores : Stores) : c.next stores = (.ok false, c) := by
  obtain ⟨plan, s⟩ := c
  rw [Cursor.next, step, plan.next_of_finished stores h]

theorem finished_of_next {finish : Cursor} (ended : c.next stores = (.ok false, finish)) : finish.Finished := by
  obtain ⟨plan, s⟩ := c
  rw [Cursor.next, step] at ended
  rcases moved : (plan.scan.next stores).runFrom s with ⟨more, t⟩
  rw [moved] at ended
  cases ended
  exact plan.finished_of_next moved

theorem Finished.withPredicate (h : c.Finished) (predicate : Expr) : (c.withPredicate predicate).Finished := by
  obtain ⟨plan, s⟩ := c
  cases plan with
  | select child old => exact h
  | join outer inner old flipped => exact h
  | table view => exact h
  | product left right => exact h
  | extend child value name => exact h
  | single value name => exact h
  | project child fields => exact h

theorem Finished.remove (h : c.Finished) {stores' : Stores} {c' : Cursor}
    (removed : c.remove stores = .ok (stores', c')) : c'.Finished := by
  obtain ⟨⟨_, s⟩, isRemoved, eq⟩ := Checked.bind_eq_ok.1 removed
  cases eq
  exact c.plan.finished_remove h isRemoved

/-- No call brings a cursor back from its end. -/
theorem Finished.perform (call : Call) (h : c.Finished) : (call.perform (stores, c)).2.Finished := by
  cases call with
  | next =>
    rw [Call.perform, h.next]
    exact h
  | read field => exact h
  | write field value =>
    rw [Call.perform]
    split
    · exact h
    · exact h
  | remove =>
    rw [Call.perform]
    split
    · next after removed => exact h.remove removed
    · exact h
  | setPredicate predicate => exact h.withPredicate predicate
  | close => exact c.plan.finished_close c.state
  | elsewhere stores => exact h

theorem Finished.performAll (calls : List Call) (s : Stores × Cursor) (h : s.2.Finished) :
    (calls.foldl (fun s call => call.perform s) s).2.Finished := by
  induction calls generalizing s with
  | nil => exact h
  | cons call calls ih => exact ih (call.perform s) (Finished.perform call h)

/-- A cursor that has found no more rows, or was closed, finds none until it goes back to its start or adds a row.
This is so for every plan, from every state, after any further calls, and whatever rows others add, remove or
change in any table in between. -/
theorem exhausted_stays (c : Cursor) (stores : Stores) {finish : Cursor}
    (ended : c.next stores = (.ok false, finish) ∨ finish = c.close) (calls : List Call) :
    let (stores', c') := calls.foldl (fun s call => call.perform s) (stores, finish)
    c'.next stores' = (.ok false, c') := by
  have finished : finish.Finished := by
    rcases ended with ended | rfl
    · exact finished_of_next ended
    · exact c.plan.finished_close c.state
  exact (Finished.performAll calls (stores, finish) finished).next _

/-- A table of one field. -/
def numbers (qualifier : String) : TableView := ⟨qualifier, .ofColumns [.plain "n" .int 0], 0⟩

def oneNumber : Stores := ((numbers "t").addBlank [.empty]).1

def twoNumbers : Stores := ((numbers "t").addBlank oneNumber).1

/-- A selection from the left join of the table with itself, at its start. -/
def pairs : Cursor :=
  let join : Cursor := ⟨.join (.table (numbers "t")) (.table (numbers "u")) (.const (Value.ofBool true)) false,
    JoinState.mk Position.beforeFirst Position.beforeFirst false false false⟩
  ((join.select (.const (Value.ofBool true))).rewind oneNumber).2

/-- The table gets a second row. -/
def callsAfterEnd : List Call :=
  [.elsewhere twoNumbers, .next, .remove, .write "t.n" (some (.int 1)), .setPredicate (.const none), .read "t.n"]

/-- The one pair was read. -/
theorem exhausted_stays_pairs :
    let last := (pairs.next oneNumber).2
    let (stores, c) := callsAfterEnd.foldl (fun s call => call.perform s) (oneNumber, (last.next oneNumber).2)
    (pairs.next oneNumber).1 = .ok true ∧ (last.next oneNumber).1 = .ok false ∧
      stores.map RowStore.size = [2] ∧ c.next stores = (.ok false, c) := by
  have first : (pairs.next oneNumber).1 = .ok true := by decide +kernel
  have ended : ((pairs.next oneNumber).2.next oneNumber).1 = .ok false := by decide +kernel
  refine ⟨first, ended, by decide +kernel, ?_⟩
  exact exhausted_stays _ _ (.inl (Prod.ext ended rfl)) callsAfterEnd

end Cursor

end RelEngine
