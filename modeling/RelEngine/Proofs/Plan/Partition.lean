import RelEngine.Proofs.Checked
import RelEngine.Proofs.Plan.Reading
import RelEngine.Proofs.Scan.Bounds

/-!
A selection, the one by the negated predicate, and the one by the question whether the predicate is unknown.

Under three-valued logic a row is left out where a predicate is false and also where it is unknown, so a selection
and its negation need not give all rows. The third one gives those that are missing. The main statement is
`Cursor.select_partition`.
-/
namespace RelEngine

/-! ## Three truths -/

namespace Value

theorem isTrue_eq (v : Value) : v.isTrue = decide (v.truth = some true) :=
  beq_eq_decide _ _

theorem isTrue_not (v : Value) : v.not.isTrue = decide (v.truth = some false) := by
  cases v with
  | none => rfl
  | some x =>
    change (some (!x.truth) == some true) = decide (some x.truth = some false)
    cases x.truth with
    | false => rfl
    | true => rfl

/-- Only NULL is identical to NULL, and only NULL has no truth. -/
theorem isTrue_is_null (v : Value) : (Value.is v none).isTrue = decide (v.truth = none) := by
  cases v with
  | none => rfl
  | some x => cases x <;> rfl

end Value

/-- The entries that fulfil a condition are the ones at the places of those that do. -/
theorem filter_eq_filterMap_findIdxs {α : Type} (f : α → Bool) (l : List α) :
    l.filter f = (l.findIdxs f).filterMap (l[·]?) := by
  induction l with
  | nil => rfl
  | cons a l ih =>
    rw [List.findIdxs_cons, List.findIdxs_start]
    have later : ((l.findIdxs f).map (· + (0 + 1))).filterMap ((a :: l)[·]?) = l.filter f := by
      rw [List.filterMap_map, ih]
      exact List.filterMap_congr fun i _ => List.getElem?_cons_succ
    cases fulfilled : f a with
    | false => simpa [fulfilled] using later.symm
    | true => simpa [fulfilled] using later.symm

namespace Expr

variable {p : Expr} {stores : Stores} {row : Record}

/-- The predicate that is true where `p` has this truth: `p` itself, its negation, or that it is NULL. -/
def having (p : Expr) : Option Bool → Expr
  | some true => p
  | some false => .not p
  | none => .is p (.const none)

/-- The truth that the expression has on a row, if it has a value there. -/
def verdict (p : Expr) (stores : Stores) (row : Record) : Checked (Option Bool) :=
  return (← p.eval stores row).truth

/-- The places of the rows on which the expression has this truth, from the first row to the last. -/
def places (p : Expr) (stores : Stores) (rows : List Record) (truth : Option Bool) : List Nat :=
  rows.findIdxs fun row => p.verdict stores row = .ok truth

theorem verdict_of_eval {v : Value} (h : p.eval stores row = .ok v) : p.verdict stores row = .ok v.truth := by
  rw [verdict, h]
  rfl

theorem accepts_having {v : Value} (h : p.eval stores row = .ok v) (truth : Option Bool) :
    (p.having truth).accepts stores row = .ok (decide (v.truth = truth)) := by
  unfold accepts
  cases truth with
  | none =>
    rw [having, eval, h]
    exact congrArg Except.ok v.isTrue_is_null
  | some b =>
    cases b with
    | true =>
      rw [having, h]
      exact congrArg Except.ok v.isTrue_eq
    | false =>
      rw [having, eval, h]
      exact congrArg Except.ok v.isTrue_not

/-- Where the expression has a value, there is one of the three predicates that is true. -/
theorem accepts_having_iff {v : Value} (h : p.eval stores row = .ok v) (truth : Option Bool) :
    (p.having truth).accepts stores row = .ok true ↔ p.verdict stores row = .ok truth := by
  rw [accepts_having h, verdict_of_eval h]
  simp only [Except.ok.injEq, decide_eq_true_eq]

theorem mem_places {rows : List Record} {truth : Option Bool} {i : Nat} :
    i ∈ p.places stores rows truth ↔ ∃ row, rows[i]? = some row ∧ p.verdict stores row = .ok truth := by
  rw [places, List.mem_findIdxs_iff_exists_getElem_pos]
  simp only [decide_eq_true_eq, List.getElem?_eq_some_iff]
  constructor
  · rintro ⟨inside, known⟩
    exact ⟨_, ⟨inside, rfl⟩, known⟩
  · rintro ⟨_, ⟨inside, rfl⟩, known⟩
    exact ⟨inside, known⟩

end Expr

/-! ## Reading a selection -/

namespace Scan

variable {σ : Type} {scan child : Scan σ} {accepts : Condition} {stores : Stores}

/-- The rows from a state on, over at most `fuel` steps; the error that ended them, if there was one; and the
state where they end. -/
def gather (scan : Scan σ) (stores : Stores) : (fuel : Nat) → σ → List Record × Option Error × σ
  | 0, s => ([], none, s)
  | fuel + 1, s =>
    match (scan.next stores).runFrom s with
    | (.error e, t) => ([], some e, t)
    | (.ok false, t) => ([], none, t)
    | (.ok true, t) => ((scan.gather stores fuel t).1.cons (scan.read stores t), (scan.gather stores fuel t).2)

/-- What is gathered depends only on the next step. -/
theorem gather_congr {s t : σ} (same : (scan.next stores).runFrom s = (scan.next stores).runFrom t) (fuel : Nat) :
    scan.gather stores (fuel + 1) s = scan.gather stores (fuel + 1) t := by
  rw [gather, gather, same]

/-- The induction is on the number of rows that can follow. A selection goes over the same rows in fewer steps, so
it has fuel of its own. -/
theorem gather_select (bounded : child.Bounded) {n fuel fuel' : Nat} {s : σ}
    (few : AtMost (child.next stores) n s) (enough : n < fuel) (enough' : n < fuel')
    (decided : ∀ row ∈ (child.gather stores fuel s).1, ∃ accepted, accepts stores row = .ok accepted) :
    (child.select accepts).gather stores fuel' s =
      ((child.gather stores fuel s).1.filter fun row => accepts stores row = .ok true,
        (child.gather stores fuel s).2) := by
  induction n using Nat.strong_induction_on generalizing s fuel fuel' with
  | _ n ih =>
    obtain ⟨fuel, rfl⟩ := Nat.exists_eq_succ_of_ne_zero (Nat.ne_zero_of_lt enough)
    obtain ⟨fuel', rfl⟩ := Nat.exists_eq_succ_of_ne_zero (Nat.ne_zero_of_lt enough')
    have selects := bounded.runFrom_select_next accepts stores s
    rcases moved : (child.next stores).runFrom s with ⟨e | more, t⟩
    · rw [moved] at selects
      simp only [gather, selects, moved, List.filter_nil]
    rw [moved] at selects
    cases more with
    | false => simp only [gather, selects, moved, List.filter_nil]
    | true =>
      obtain ⟨m, less, few'⟩ := few.step moved
      have enough := Nat.lt_of_lt_of_le less (Nat.le_of_lt_succ enough)
      have gathered : child.gather stores (fuel + 1) s =
          (child.read stores t :: (child.gather stores fuel t).1, (child.gather stores fuel t).2) := by
        rw [gather, moved]
      rw [gathered] at decided ⊢
      obtain ⟨accepted, first⟩ := decided _ List.mem_cons_self
      have decided := fun row mem => decided row (List.mem_cons_of_mem _ mem)
      simp only [first] at selects
      cases accepted with
      | true =>
        have enough' := Nat.lt_of_lt_of_le less (Nat.le_of_lt_succ enough')
        have rest := ih m less few' enough enough' decided
        rw [List.filter_cons_of_pos (by simp [first])]
        simp only [gather, selects, rest]
        rfl
      | false =>
        have rest := ih m less few' enough (Nat.lt_trans less enough') decided
        rw [List.filter_cons_of_neg (by simp [first]), ← rest]
        exact gather_congr selects _

end Scan

namespace Cursor

variable {c : Cursor} {stores : Stores}

/-- The rows from where the cursor stands, each by the results of reading its names. -/
def following (c : Cursor) (stores : Stores) : Reading Record :=
  c.readAll stores fun c => .ok (c.read stores)

/-- What was gathered, with the cursor where it ended. -/
def Reading.ofGathered (plan : Plan) (gathered : List Record × Option Error × plan.State) : Reading Record :=
  ⟨gathered.1, gathered.2.1, ⟨plan, gathered.2.2⟩⟩

theorem readOn_eq_gather (plan : Plan) (s : plan.State) (stores : Stores) (fuel : Nat) :
    readOn stores (fun c => .ok (c.read stores)) fuel ⟨plan, s⟩ =
      .ofGathered plan (plan.scan.gather stores fuel s) := by
  induction fuel generalizing s with
  | zero => rfl
  | succ fuel ih =>
    simp only [readOn, next, step, Scan.gather]
    rcases (plan.scan.next stores).runFrom s with ⟨e | more, t⟩
    · rfl
    cases more with
    | false => rfl
    | true =>
      simp only [ih t]
      rfl

/-- A selection gives those of the rows that the predicate accepts, and ends where they end. -/
theorem following_select {q : Expr}
    (decided : ∀ row ∈ (c.following stores).rows, ∃ accepted, q.accepts stores row = .ok accepted) :
    (c.select q).following stores =
      ⟨(c.following stores).rows.filter fun row => q.accepts stores row = .ok true,
        (c.following stores).stopped, (c.following stores).cursor.select q⟩ := by
  obtain ⟨child, s⟩ := c
  have bounded := child.bounded
  have more := Nat.lt_succ_self (child.scan.rowBound stores)
  have all : (Cursor.mk child s).following stores = .ofGathered child (child.scan.gather stores _ s) :=
    readOn_eq_gather child s stores _
  rw [all] at decided ⊢
  calc ((Cursor.mk child s).select q).following stores
      = .ofGathered (.select child q) ((child.scan.select q.accepts).gather stores _ s) :=
        readOn_eq_gather (.select child q) s stores _
    _ = _ :=
        congrArg (Reading.ofGathered (.select child q))
          (Scan.gather_select bounded (bounded stores s) more more decided)

/-- Going back does not depend on the predicate. -/
theorem rewound_select (c : Cursor) (q : Expr) (stores : Stores) :
    (c.select q).rewound stores = (c.rewound stores).map (·.select q) := by
  obtain ⟨child, s⟩ := c
  have isRewind : ((Cursor.mk child s).select q).rewind stores =
      (((child.scan.rewind stores).runFrom s).1,
        Cursor.mk (.select child q) ((child.scan.rewind stores).runFrom s).2) := rfl
  rw [rewound, rewound, isRewind, rewind, step]
  rcases (child.scan.rewind stores).runFrom s with ⟨e | u, t⟩
  · rfl
  · rfl

/-- Each row that follows, by its place, is given by exactly one of the three selections: by the predicate, by its
negation, or by the question whether it is NULL. Each of them gives its rows in the order of the places, and no
others; it ends where the rows do, with the same error if an error ended them. This is so wherever the cursor
stands, and going back to the start is the same for all of them. -/
theorem select_partition (c : Cursor) (stores : Stores) (p : Expr)
    (evaluates : ∀ row ∈ (c.following stores).rows, ∃ v, p.eval stores row = .ok v) :
    let rows := (c.following stores).rows
    (∀ truth, (c.select (p.having truth)).following stores =
      ⟨(p.places stores rows truth).filterMap (rows[·]?), (c.following stores).stopped,
        (c.following stores).cursor.select (p.having truth)⟩) ∧
    (∀ truth, (p.places stores rows truth).Pairwise (· < ·)) ∧
    (∀ truth, ∀ i ∈ p.places stores rows truth, i < rows.length) ∧
    (∀ i < rows.length, ∃! truth, i ∈ p.places stores rows truth) ∧
    ∀ truth, (c.select (p.having truth)).rewound stores = (c.rewound stores).map (·.select (p.having truth)) := by
  intro rows
  refine ⟨?_, fun truth => List.pairwise_findIdxs, ?_, ?_, fun truth => c.rewound_select _ stores⟩
  · intro truth
    rw [following_select fun row mem => ?_, Expr.places, ← filter_eq_filterMap_findIdxs]
    · congr 1
      refine List.filter_congr fun row mem => ?_
      obtain ⟨v, value⟩ := evaluates row mem
      exact decide_eq_decide.2 (Expr.accepts_having_iff value truth)
    · obtain ⟨v, value⟩ := evaluates row mem
      exact ⟨_, Expr.accepts_having value truth⟩
  · intro truth i mem
    obtain ⟨row, isRow, -⟩ := Expr.mem_places.1 mem
    exact (List.getElem?_eq_some_iff.1 isRow).1
  · intro i inside
    obtain ⟨v, value⟩ := evaluates rows[i] (List.getElem_mem inside)
    have known := Expr.verdict_of_eval value
    refine ⟨v.truth, Expr.mem_places.2 ⟨_, List.getElem?_eq_getElem inside, known⟩, fun truth mem => ?_⟩
    obtain ⟨row, isRow, other⟩ := Expr.mem_places.1 mem
    cases (List.getElem?_eq_getElem inside).symm.trans isRow
    exact Except.ok.inj (other.symm.trans known)

/-- A column with a NULL, a small and a large number. -/
def thirds : Schema := .ofColumns [.plain "n" .int 0]

def thirdsStores : Stores :=
  let row (n : Int32) := ((Row.set thirds (Row.blank thirds) "n" (some (.int n))).toOption).getD []
  [RowStore.ofEntries [(0, Row.blank thirds), (1, row 2), (2, row 8)]]

/-- Each of the three rows is in one selection. -/
theorem select_partition_thirds :
    let c : Cursor := .table ⟨"t", thirds, 0⟩
    let small : Expr := .compare .lt (.field "n") (.const (some (.int 5)))
    let rows := (c.following thirdsStores).rows
    rows.length = 3 ∧
    ((c.select (small.having (some true))).following thirdsStores).rows = [1].filterMap (rows[·]?) ∧
    ((c.select (small.having (some false))).following thirdsStores).rows = [2].filterMap (rows[·]?) ∧
    ((c.select (small.having none)).following thirdsStores).rows = [0].filterMap (rows[·]?) := by
  intro c small rows
  have isOk : ∀ row ∈ rows, (small.eval thirdsStores row).isOk := by decide +kernel
  have evaluates : ∀ row ∈ rows, ∃ v, small.eval thirdsStores row = .ok v :=
    fun row mem => Checked.exists_of_isOk (isOk row mem)
  have chosen := (select_partition c thirdsStores small evaluates).1
  have yes : small.places thirdsStores rows (some true) = [1] := by decide +kernel
  have no : small.places thirdsStores rows (some false) = [2] := by decide +kernel
  have unknown : small.places thirdsStores rows none = [0] := by decide +kernel
  refine ⟨by decide +kernel, ?_, ?_, ?_⟩
  · rw [chosen, yes]
  · rw [chosen, no]
  · rw [chosen, unknown]

end Cursor

end RelEngine
