import RelEngine.Proofs.Scan.Follows
import RelEngine.Proofs.SortedMap
import RelEngine.Scan.Rows
import RelEngine.Scan.Views

/-!
The rows that the readers of one table or over one other reader give.
-/
namespace RelEngine

variable {σ : Type} {stores : Stores} {fails : Error → Prop}

/-! ## Where rows come from -/

/-- On a row of a table, the rows with greater ids follow. -/
theorem Scan.follows_table (t : TableView) {before after : List RowId} {id : RowId}
    (h : (t.rows stores).ids = before ++ id :: after) :
    Follows ((Scan.table t).next stores) ((Scan.table t).read stores) fails (.onRow id)
      (after.map fun id => t.read stores (some id)) := by
  have following : (t.rows stores).idAfter? id = after.head? := SortedMap.after?_of_keys h
  induction after generalizing before id with
  | nil =>
    have last : ((Scan.table t).next stores).runFrom (.onRow id) = (.ok false, .exhausted) := by
      change (Except.ok ((t.rows stores).idAfter? id).isSome,
        Position.ofRow? ((t.rows stores).idAfter? id)) = _
      rw [following]
      rfl
    exact .done last rfl
  | cons next after ih =>
    have moved : ((Scan.table t).next stores).runFrom (.onRow id) = (.ok true, .onRow next) := by
      change (Except.ok ((t.rows stores).idAfter? id).isSome,
        Position.ofRow? ((t.rows stores).idAfter? id)) = _
      rw [following]
      rfl
    have h' : (t.rows stores).ids = (before ++ [id]) ++ next :: after := by
      rw [h, List.append_cons]
    exact .row moved (ih h' (SortedMap.after?_of_keys h'))

theorem Scan.lists_table (t : TableView) :
    (Scan.table t).Lists stores ((t.rows stores).ids.map fun id => t.read stores (some id)) fails := by
  refine .ready .beforeFirst (fun _ => rfl) ?_
  have first : (t.rows stores).firstId? = (t.rows stores).ids.head? := SortedMap.first?_eq_head? _
  cases h : (t.rows stores).ids with
  | nil =>
    have last : ((Scan.table t).next stores).runFrom .beforeFirst = (.ok false, .exhausted) := by
      change (Except.ok (t.rows stores).firstId?.isSome,
        Position.ofRow? (t.rows stores).firstId?) = _
      rw [first, h]
      rfl
    exact .done last rfl
  | cons id after =>
    have moved : ((Scan.table t).next stores).runFrom .beforeFirst = (.ok true, .onRow id) := by
      change (Except.ok (t.rows stores).firstId?.isSome,
        Position.ofRow? (t.rows stores).firstId?) = _
      rw [first, h]
      rfl
    have h' : (t.rows stores).ids = [] ++ id :: after := h
    exact .row moved (follows_table t h')

theorem Scan.lists_single (value : Stores → Checked Value) (name : String) :
    (Scan.single value name).Lists stores [Record.extend noFields name (value stores)] fails := by
  have last : ((Scan.single value name).next stores).runFrom false = (.ok false, false) := rfl
  exact .ready true (fun _ => rfl) (.row (t := false) rfl (.done last last))

/-! ## Views of one reader -/

section Views

variable {child : Scan σ} {rows : List Record}

/-- The rows that follow in a selection are the accepted ones. The induction is on the number of the
child's rows, for one step of the selection may pass several of them. -/
theorem Scan.follows_select {accepts : Condition} {start : σ}
    (h : Follows (child.next stores) (child.read stores) fails start rows)
    (bound : rows.length ≤ child.rowBound stores) :
    Follows ((child.select accepts).next stores) ((child.select accepts).read stores)
      (fun e => fails e ∨ ∃ r ∈ rows, accepts stores r = .error e) start
      (rows.filter fun r => accepts stores r = .ok true) := by
  suffices claim : ∀ n : Nat, ∀ s (ahead : List Record), ahead.length < n →
      Follows (child.next stores) (child.read stores) fails s ahead → ahead ⊆ rows →
      ahead.length ≤ child.rowBound stores →
      Follows ((child.select accepts).next stores) ((child.select accepts).read stores)
        (fun e => fails e ∨ ∃ r ∈ rows, accepts stores r = .error e) s
        (ahead.filter fun r => accepts stores r = .ok true) from
    claim _ start rows (Nat.lt_succ_self _) h (List.Subset.refl _) bound
  intro n
  induction n with
  | zero => exact fun _ _ short => absurd short (Nat.not_lt_zero _)
  | succ n ih =>
    intro s ahead short follows sub bound
    have sought := follows.seek (accepts stores) (Nat.lt_succ_of_le bound)
    generalize result :
      (seek (child.next stores) (fun s => accepts stores (child.read stores s))
        (child.rowBound stores + 1)).runFrom s = r at sought
    cases sought with
    | none stays empty =>
      rw [empty]
      exact .done result (seek_at_end stays _)
    | found rest shorter restSub eq =>
      rw [eq]
      exact .row result (ih _ _ (Nat.lt_of_lt_of_le shorter (Nat.le_of_lt_succ short)) rest
        (List.Subset.trans restSub sub) (Nat.le_trans (Nat.le_of_lt shorter) bound))
    | failed cause =>
      refine .failed result (cause.imp_right ?_)
      rintro ⟨r, mem, bad⟩
      exact ⟨r, sub mem, bad⟩

theorem Scan.Lists.select {accepts : Condition} (h : child.Lists stores rows fails)
    (bound : rows.length ≤ child.rowBound stores) :
    (child.select accepts).Lists stores (rows.filter fun r => accepts stores r = .ok true)
      (fun e => fails e ∨ ∃ r ∈ rows, accepts stores r = .error e) := by
  cases h with
  | ready start rewinds follows => exact .ready start rewinds (follows_select follows bound)
  | failed e broken cause => exact .failed e broken (.inl cause)

theorem Scan.Lists.extend {value : Stores → (String → Checked Value) → Checked Value} {name : String}
    (h : child.Lists stores rows fails) :
    (child.extend value name).Lists stores
      (rows.map fun r => Record.extend r name (value stores r)) fails := by
  cases h with
  | ready start rewinds follows =>
    exact .ready start rewinds
      (follows.map (fun r => Record.extend r name (value stores r)) fun _ => rfl)
  | failed e broken cause => exact .failed e broken cause

theorem Scan.Lists.project {fields : List String} (h : child.Lists stores rows fails) :
    (child.project fields).Lists stores (rows.map fun r => Record.project r fields) fails := by
  cases h with
  | ready start rewinds follows =>
    exact .ready start rewinds (follows.map (fun r => Record.project r fields) fun _ => rfl)
  | failed e broken cause => exact .failed e broken cause

end Views

end RelEngine
