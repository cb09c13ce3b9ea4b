import RelEngine.Proofs.Scan.Follows
import RelEngine.Scan.Pairs

/-!
The rows that the reader of a product gives.

The proof is one induction on the left rows that follow, with one on the right rows that follow within it.
-/
namespace RelEngine.Scan

variable {α β : Type} {stores : Stores} {fails : Error → Prop} {left : Scan α} {right : Scan β}

/-- One step of a product within the current left row, and the step to the next one. -/
theorem runFrom_product_next (l : α) (r : β) :
    ((left.product right).next stores).runFrom ⟨l, r, true⟩ =
      match (right.next stores).runFrom r with
      | (.error e, r) => (.error e, ⟨l, r, true⟩)
      | (.ok true, r) => (.ok true, ⟨l, r, true⟩)
      | (.ok false, r) =>
        match (right.rewind stores).runFrom r with
        | (.error e, r) => (.error e, ⟨l, r, true⟩)
        | (.ok (), r) =>
          match (left.next stores).runFrom l with
          | (.error e, l) => (.error e, ⟨l, r, true⟩)
          | (.ok false, l) => (.ok false, ⟨l, r, false⟩)
          | (.ok true, l) =>
            match (right.next stores).runFrom r with
            | (.error e, r) => (.error e, ⟨l, r, true⟩)
            | (.ok more, r) => (.ok more, ⟨l, r, more⟩) := by
  simp only [product, ProductState.onRight, ProductState.onLeft, Move.runFrom_bind, Move.runFrom_get,
    Move.runFrom_ite, Move.runFrom_within, Bool.not_true, Bool.false_eq_true, if_false]
  rcases (right.next stores).runFrom r with ⟨_ | more, r⟩
  · rfl
  cases more with
  | true => rfl
  | false =>
    simp only [Bool.false_eq_true, if_false]
    rcases (right.rewind stores).runFrom r with ⟨_ | _, r⟩
    · rfl
    simp only
    rcases (left.next stores).runFrom l with ⟨_ | more, l⟩
    · rfl
    cases more with
    | false => rfl
    | true =>
      simp only [if_true]
      rcases (right.next stores).runFrom r with ⟨_ | more, r⟩
      · rfl
      · rfl

/-- What a step that succeeds has done: it went on within the current left row, or to the next one. -/
theorem product_next_eq_ok {l : α} {r : β} {more : Bool} {t : ProductState α β}
    (moved : ((left.product right).next stores).runFrom ⟨l, r, true⟩ = (.ok more, t)) :
    (∃ r', (right.next stores).runFrom r = (.ok true, r') ∧ more = true ∧ t = ⟨l, r', true⟩) ∨
      ∃ l' r₁ r₂ advanced, (right.next stores).runFrom r = (.ok false, r₁) ∧
        (left.next stores).runFrom l = (.ok advanced, l') ∧
        (advanced = false ∧ more = false ∧ t = ⟨l', r₂, false⟩ ∨
          advanced = true ∧ ∃ r', (right.next stores).runFrom r₂ = (.ok more, r') ∧ t = ⟨l', r', more⟩) := by
  rw [runFrom_product_next] at moved
  rcases stepped : (right.next stores).runFrom r with ⟨e | onRow, r₁⟩
  · rw [stepped] at moved
    cases moved
  rw [stepped] at moved
  cases onRow with
  | true =>
    cases moved
    exact .inl ⟨r₁, rfl, rfl, rfl⟩
  | false =>
    simp only at moved
    rcases rewound : (right.rewind stores).runFrom r₁ with ⟨e | _, r₂⟩
    · rw [rewound] at moved
      cases moved
    rw [rewound] at moved
    simp only at moved
    rcases stepped : (left.next stores).runFrom l with ⟨e | advanced, l'⟩
    · rw [stepped] at moved
      cases moved
    rw [stepped] at moved
    refine .inr ⟨l', r₁, r₂, advanced, rfl, rfl, ?_⟩
    cases advanced with
    | false =>
      cases moved
      exact .inl ⟨rfl, rfl, rfl⟩
    | true =>
      simp only at moved
      rcases first : (right.next stores).runFrom r₂ with ⟨e | onRow, r'⟩
      · rw [first] at moved
        cases moved
      · rw [first] at moved
        cases moved
        exact .inr ⟨rfl, r', rfl, rfl⟩

theorem product_next_at_end (l : α) (r : β) :
    ((left.product right).next stores).runFrom ⟨l, r, false⟩ = (.ok false, ⟨l, r, false⟩) := rfl

theorem runFrom_product_rewind (s : ProductState α β) :
    ((left.product right).rewind stores).runFrom s =
      match (left.rewind stores).runFrom s.left with
      | (.error e, l) => (.error e, { s with left := l })
      | (.ok (), l) =>
        match (left.next stores).runFrom l with
        | (.error e, l) => (.error e, { s with left := l })
        | (.ok more, l) =>
          match (right.rewind stores).runFrom s.right with
          | (.error e, r) => (.error e, ⟨l, r, more⟩)
          | (.ok (), r) => (.ok (), ⟨l, r, more⟩) := by
  simp only [product, ProductState.onRight, ProductState.onLeft, Move.runFrom_bind,
    Move.runFrom_within]
  rcases (left.rewind stores).runFrom s.left with ⟨_ | _, l⟩
  · rfl
  simp only
  rcases (left.next stores).runFrom l with ⟨_ | more, l⟩
  · rfl
  simp only [Move.runFrom_modify]
  rcases (right.rewind stores).runFrom s.right with ⟨_ | _, r⟩
  · rfl
  · rfl

variable {rights : List Record} {start : β}

/-- The pairs of the current left row come first. What follows them is what follows once the right side
has ended. -/
theorem follows_product_row {l : α} {ahead : List Record}
    (after : ∀ r t, (right.next stores).runFrom r = (.ok false, t) →
      Follows ((left.product right).next stores) ((left.product right).read stores) fails
        ⟨l, r, true⟩ ahead)
    {r : β} {rest : List Record}
    (hr : Follows (right.next stores) (right.read stores) fails r rest) :
    Follows ((left.product right).next stores) ((left.product right).read stores) fails ⟨l, r, true⟩
      (rest.map (Record.pair left.has (left.read stores l)) ++ ahead) := by
  induction hr with
  | done last _ => exact after _ _ last
  | @row r t rest moved _ ih =>
    have step : ((left.product right).next stores).runFrom ⟨l, r, true⟩ =
        (.ok true, ⟨l, t, true⟩) := by
      rw [runFrom_product_next, moved]
    exact .row step ih
  | @failed r t e rows broken cause =>
    have step : ((left.product right).next stores).runFrom ⟨l, r, true⟩ =
        (.error e, ⟨l, t, true⟩) := by
      rw [runFrom_product_next, broken]
    exact .failed step cause

/-- With a left row and some right rows still to come, the pairs of the two are followed by the pairs of
the left rows after it. -/
theorem follows_product (rewinds : ∀ s, (right.rewind stores).runFrom s = (.ok (), start))
    (all : Follows (right.next stores) (right.read stores) fails start rights)
    {l : α} {lefts : List Record}
    (hl : Follows (left.next stores) (left.read stores) fails l lefts)
    {r : β} {rest : List Record}
    (hr : Follows (right.next stores) (right.read stores) fails r rest) :
    Follows ((left.product right).next stores) ((left.product right).read stores) fails ⟨l, r, true⟩
      (rest.map (Record.pair left.has (left.read stores l)) ++
        lefts.flatMap fun row => rights.map (Record.pair left.has row)) := by
  induction hl generalizing r rest with
  | @done l l' last _ =>
    refine follows_product_row (fun r t ended => ?_) hr
    have step : ((left.product right).next stores).runFrom ⟨l, r, true⟩ =
        (.ok false, ⟨l', start, false⟩) := by
      rw [runFrom_product_next, ended]
      simp only [rewinds, last]
    exact .done step (product_next_at_end _ _)
  | @failed l l' e rows broken cause =>
    refine follows_product_row (fun r t ended => ?_) hr
    have step : ((left.product right).next stores).runFrom ⟨l, r, true⟩ =
        (.error e, ⟨l', start, true⟩) := by
      rw [runFrom_product_next, ended]
      simp only [rewinds, broken]
    exact .failed step cause
  | @row l l' lefts moved _ ih =>
    refine follows_product_row (fun r t ended => ?_) hr
    have step : ((left.product right).next stores).runFrom ⟨l, r, true⟩ =
        match (right.next stores).runFrom start with
        | (.error e, r) => (.error e, ⟨l', r, true⟩)
        | (.ok more, r) => (.ok more, ⟨l', r, more⟩) := by
      rw [runFrom_product_next, ended]
      simp only [rewinds, moved]
    rw [List.flatMap_cons]
    -- The right side starts again; if it has no rows at all, the product ends here.
    cases all with
    | done last _ =>
      rw [last] at step
      have none : (lefts.flatMap fun row => [].map (Record.pair left.has row)) = [] := by simp
      rw [none]
      exact .done step (product_next_at_end _ _)
    | row first rest =>
      rw [first] at step
      exact .row step (ih rest)
    | failed broken cause =>
      rw [broken] at step
      exact .failed step cause

theorem Lists.product {lefts rights : List Record} (hl : left.Lists stores lefts fails)
    (hr : right.Lists stores rights fails) :
    (left.product right).Lists stores
      (lefts.flatMap fun l => rights.map fun r => Record.pair left.has l r) fails := by
  cases hl with
  | failed e broken cause =>
    refine .failed e (fun s => ?_) cause
    obtain ⟨t, h⟩ := broken s.left
    exact ⟨_, by rw [runFrom_product_rewind, h]⟩
  | ready leftStart leftRewinds hl =>
    -- The left side is put on its first row before the right side goes back, so its error comes first.
    cases hl with
    | @failed _ l e _ broken cause =>
      refine .failed e (fun s => ⟨{ s with left := l }, ?_⟩) cause
      rw [runFrom_product_rewind, leftRewinds]
      simp only [broken]
    | @done _ l last _ =>
      cases hr with
      | failed e broken cause =>
        refine .failed e (fun s => ?_) cause
        obtain ⟨t, h⟩ := broken s.right
        refine ⟨⟨l, t, false⟩, ?_⟩
        rw [runFrom_product_rewind, leftRewinds]
        simp only [last, h]
      | ready rightStart rightRewinds hr =>
        refine .ready ⟨l, rightStart, false⟩ (fun s => ?_)
          (.done (product_next_at_end _ _) (product_next_at_end _ _))
        rw [runFrom_product_rewind, leftRewinds]
        simp only [last, rightRewinds]
    | @row _ l rest moved hl =>
      cases hr with
      | failed e broken cause =>
        refine .failed e (fun s => ?_) cause
        obtain ⟨t, h⟩ := broken s.right
        refine ⟨⟨l, t, true⟩, ?_⟩
        rw [runFrom_product_rewind, leftRewinds]
        simp only [moved, h]
      | ready rightStart rightRewinds hr =>
        refine .ready ⟨l, rightStart, true⟩ (fun s => ?_) (follows_product rightRewinds hr hl hr)
        rw [runFrom_product_rewind, leftRewinds]
        simp only [moved, rightRewinds]

end RelEngine.Scan
