import RelEngine.Proofs.Scan.Follows
import RelEngine.Scan.Pairs

/-!
The rows that the reader of an outer join gives.

The reader has two ways to leave an outer row: after its last match, and after the row that stood for a
lack of matches. Both go on as `Join.resume` does, so one lemma about that step serves both.
-/
namespace RelEngine.Scan.Join

variable {α β : Type} {stores : Stores} {fails : Error → Prop} {j : Join α β}

/-! ## Single steps -/

theorem runFrom_advanceOuter (s : JoinState α β) :
    (j.advanceOuter stores).runFrom s =
      match (j.outer.next stores).runFrom s.outer with
      | (.error e, o) => (.error e, { s with outer := o })
      | (.ok more, o) =>
        match (j.inner.rewind stores).runFrom s.inner with
        | (.error e, i) => (.error e, ⟨o, i, more, false, s.innerNull⟩)
        | (.ok (), i) => (.ok more, ⟨o, i, more, false, s.innerNull⟩) := by
  simp only [advanceOuter, JoinState.onOuter, JoinState.onInner, Move.runFrom_bind,
    Move.runFrom_within]
  rcases (j.outer.next stores).runFrom s.outer with ⟨_ | more, o⟩
  · rfl
  simp only [Move.runFrom_modify]
  rcases (j.inner.rewind stores).runFrom s.inner with ⟨_ | _, i⟩
  · rfl
  · rfl

/-- The pair of the outer row with an inner one, as the predicate sees it. -/
def pairWith (j : Join α β) (stores : Stores) (o : α) (inner : Record) : Record :=
  Record.join j.isInner (j.outer.read stores o) (some inner)

theorem runFrom_findMatch (s : JoinState α β) :
    (j.findMatch stores).runFrom s =
      match (seek (j.inner.next stores)
        (fun i => j.accepts stores (j.pairWith stores s.outer (j.inner.read stores i)))
        (j.inner.rowBound stores + 1)).runFrom s.inner with
      | (.error e, i) => (.error e, { s with inner := i })
      | (.ok true, i) => (.ok true, { s with inner := i, outerMatched := true })
      | (.ok false, i) => (.ok false, { s with inner := i }) := by
  simp only [findMatch, Move.runFrom_bind, JoinState.onInner]
  rw [runFrom_seek_within (fun s : JoinState α β => s.inner)
    (fun inner (s : JoinState α β) => { s with inner }) (fun _ _ => rfl) (fun _ _ _ => rfl)
    (fun _ => rfl)]
  have same : (fun i => j.accepts stores (j.readPair stores { s with inner := i })) =
      fun i => j.accepts stores (j.pairWith stores s.outer (j.inner.read stores i)) := rfl
  simp only [same]
  rcases (seek (j.inner.next stores)
    (fun i => j.accepts stores (j.pairWith stores s.outer (j.inner.read stores i)))
    (j.inner.rowBound stores + 1)).runFrom s.inner with ⟨_ | found, i⟩
  · rfl
  · cases found with
    | false => rfl
    | true => rfl

/-- A step on an outer row that is not shown without a match. -/
theorem runFrom_next (o : α) (i : β) (m : Bool) :
    (j.next stores).runFrom ⟨o, i, true, m, false⟩ =
      match (j.findMatch stores).runFrom ⟨o, i, true, m, false⟩ with
      | (.error e, s) => (.error e, s)
      | (.ok true, s) => (.ok true, s)
      | (.ok false, s) =>
        if s.outerMatched then
          match (j.advanceOuter stores).runFrom s with
          | (.error e, s) => (.error e, s)
          | (.ok false, s) => (.ok false, s)
          | (.ok true, s) =>
            match (j.findMatch stores).runFrom s with
            | (.error e, s) => (.error e, s)
            | (.ok true, s) => (.ok true, s)
            | (.ok false, s) => (.ok true, { s with innerNull := true })
        else (.ok true, { s with innerNull := true }) := by
  simp only [next, Move.runFrom_bind, Move.runFrom_get, Move.runFrom_ite, Bool.not_true,
    Bool.false_eq_true, if_false]
  rcases (j.findMatch stores).runFrom ⟨o, i, true, m, false⟩ with ⟨_ | found, s⟩
  · rfl
  cases found with
  | true => rfl
  | false =>
    simp only [Bool.false_eq_true, if_false]
    rcases s with ⟨o, i, onRow, matched, null⟩
    cases matched with
    | false => rfl
    | true =>
      simp only [if_true]
      rcases (j.advanceOuter stores).runFrom ⟨o, i, onRow, true, null⟩ with ⟨_ | more, s⟩
      · rfl
      cases more with
      | false => rfl
      | true =>
        simp only [Bool.not_true, Bool.false_eq_true, if_false]
        rcases (j.findMatch stores).runFrom s with ⟨_ | found, s⟩
        · rfl
        · cases found with
          | false => rfl
          | true => rfl

/-- From an outer row that has met no match yet, a step gives its first match or the row without one. -/
theorem runFrom_next_fresh (o : α) (i : β) :
    (j.next stores).runFrom ⟨o, i, true, false, false⟩ =
      match (j.findMatch stores).runFrom ⟨o, i, true, false, false⟩ with
      | (.error e, s) => (.error e, s)
      | (.ok true, s) => (.ok true, s)
      | (.ok false, s) => (.ok true, { s with innerNull := true }) := by
  rw [runFrom_next, runFrom_findMatch]
  rcases (seek (j.inner.next stores)
    (fun i => j.accepts stores (j.pairWith stores o (j.inner.read stores i)))
    (j.inner.rowBound stores + 1)).runFrom i with ⟨_ | found, i⟩
  · rfl
  · cases found with
    | false => rfl
    | true => rfl

/-- Goes to the next outer row and on from there. -/
def resume (j : Join α β) (stores : Stores) : Move (JoinState α β) Bool := do
  if !(← j.advanceOuter stores) then return false
  j.next stores

theorem runFrom_resume (o : α) (i : β) (m : Bool) :
    (j.resume stores).runFrom ⟨o, i, true, m, false⟩ =
      match (j.outer.next stores).runFrom o with
      | (.error e, o) => (.error e, ⟨o, i, true, m, false⟩)
      | (.ok more, o) =>
        match (j.inner.rewind stores).runFrom i with
        | (.error e, i) => (.error e, ⟨o, i, more, false, false⟩)
        | (.ok (), i) => (j.next stores).runFrom ⟨o, i, more, false, false⟩ := by
  simp only [resume, Move.runFrom_bind, runFrom_advanceOuter]
  rcases (j.outer.next stores).runFrom o with ⟨_ | more, o⟩
  · rfl
  simp only
  rcases (j.inner.rewind stores).runFrom i with ⟨_ | _, i⟩
  · rfl
  · cases more with
    | false => rfl
    | true => rfl

/-- After the row that stood for a lack of matches. -/
theorem next_after_null (o : α) (i : β) (m : Bool) :
    (j.next stores).runFrom ⟨o, i, true, m, true⟩ =
      (j.resume stores).runFrom ⟨o, i, true, m, false⟩ := by
  rw [runFrom_resume]
  simp only [next, Move.runFrom_bind, Move.runFrom_get, Move.runFrom_ite, Bool.not_true,
    Bool.false_eq_true, if_false, if_true, Move.runFrom_modify, runFrom_advanceOuter]
  rcases (j.outer.next stores).runFrom o with ⟨_ | more, o⟩
  · rfl
  simp only
  rcases (j.inner.rewind stores).runFrom i with ⟨_ | _, i⟩
  · rfl
  · cases more with
    | false => rfl
    | true => rfl

/-- After the last match. -/
theorem next_after_matches {o : α} {i i' : β}
    (ended : (j.findMatch stores).runFrom ⟨o, i, true, true, false⟩ =
      (.ok false, ⟨o, i', true, true, false⟩)) :
    (j.next stores).runFrom ⟨o, i, true, true, false⟩ =
      (j.resume stores).runFrom ⟨o, i', true, true, false⟩ := by
  rw [runFrom_next, ended, runFrom_resume]
  simp only [if_true, runFrom_advanceOuter]
  rcases (j.outer.next stores).runFrom o with ⟨_ | more, o⟩
  · rfl
  simp only
  rcases (j.inner.rewind stores).runFrom i' with ⟨_ | _, i⟩
  · rfl
  · cases more with
    | false => rfl
    | true => 
      simp only [runFrom_next_fresh]

/-! ## Steps that succeed -/

/-- Seeks a match of an outer row. -/
abbrev seekInner (j : Join α β) (stores : Stores) (o : α) : Move β Bool :=
  seek (j.inner.next stores)
    (fun i => j.accepts stores (j.pairWith stores o (j.inner.read stores i)))
    (j.inner.rowBound stores + 1)

variable {o : α} {i : β} {matched null more : Bool} {t : JoinState α β}

theorem findMatch_eq_ok (found : (j.findMatch stores).runFrom ⟨o, i, true, matched, false⟩ = (.ok more, t)) :
    ∃ i', (j.seekInner stores o).runFrom i = (.ok more, i') ∧ t = ⟨o, i', true, matched || more, false⟩ := by
  rw [runFrom_findMatch] at found
  rcases sought : (j.seekInner stores o).runFrom i with ⟨e | more, i'⟩
  · rw [sought] at found
    cases found
  rw [sought] at found
  cases more with
  | false =>
    cases found
    exact ⟨i', rfl, by rw [Bool.or_false]⟩
  | true =>
    cases found
    exact ⟨i', rfl, by rw [Bool.or_true]⟩

/-- An outer row without a match so far gives its first match, or the row without one. -/
theorem fresh_eq_ok (moved : (j.next stores).runFrom ⟨o, i, true, false, false⟩ = (.ok more, t)) :
    more = true ∧ ∃ i', (j.seekInner stores o).runFrom i = (.ok true, i') ∧ t = ⟨o, i', true, true, false⟩ ∨
      t = ⟨o, i', true, false, true⟩ := by
  rw [runFrom_next_fresh] at moved
  rcases found : (j.findMatch stores).runFrom ⟨o, i, true, false, false⟩ with ⟨e | more, u⟩
  · rw [found] at moved
    cases moved
  rw [found] at moved
  obtain ⟨i', sought, rfl⟩ := findMatch_eq_ok found
  cases more with
  | true =>
    cases moved
    exact ⟨rfl, i', .inl ⟨sought, rfl⟩⟩
  | false =>
    cases moved
    exact ⟨rfl, i', .inr rfl⟩

theorem resume_eq_ok (moved : (j.resume stores).runFrom ⟨o, i, true, matched, false⟩ = (.ok more, t)) :
    ∃ o' i' advanced, (j.outer.next stores).runFrom o = (.ok advanced, o') ∧
      (j.next stores).runFrom ⟨o', i', advanced, false, false⟩ = (.ok more, t) := by
  rw [runFrom_resume] at moved
  rcases stepped : (j.outer.next stores).runFrom o with ⟨e | advanced, o'⟩
  · rw [stepped] at moved
    cases moved
  rw [stepped] at moved
  simp only at moved
  rcases rewound : (j.inner.rewind stores).runFrom i with ⟨e | _, i'⟩
  · rw [rewound] at moved
    cases moved
  · rw [rewound] at moved
    exact ⟨o', i', advanced, rfl, moved⟩

/-- What a step that succeeds has done: it gave another row of the current outer row, or it went on from there. -/
theorem next_eq_ok (moved : (j.next stores).runFrom ⟨o, i, true, matched, null⟩ = (.ok more, t)) :
    (null = false ∧ more = true ∧ ∃ i', (j.seekInner stores o).runFrom i = (.ok true, i') ∧
        t = ⟨o, i', true, true, false⟩ ∨ t = ⟨o, i', true, false, true⟩) ∨
      ∃ i', (j.resume stores).runFrom ⟨o, i', true, matched, false⟩ = (.ok more, t) := by
  cases null with
  | true =>
    rw [next_after_null] at moved
    exact .inr ⟨i, moved⟩
  | false =>
    cases matched with
    | false => exact .inl ⟨rfl, fresh_eq_ok moved⟩
    | true =>
      rcases found : (j.findMatch stores).runFrom ⟨o, i, true, true, false⟩ with ⟨e | seen, u⟩
      · rw [runFrom_next, found] at moved
        cases moved
      obtain ⟨i', sought, rfl⟩ := findMatch_eq_ok found
      cases seen with
      | true =>
        rw [runFrom_next, found] at moved
        cases moved
        exact .inl ⟨rfl, rfl, i', .inl ⟨sought, rfl⟩⟩
      | false =>
        rw [next_after_matches found] at moved
        exact .inr ⟨i', moved⟩

/-! ## What follows -/

theorem next_at_end (o : α) (i : β) (m n : Bool) :
    (j.next stores).runFrom ⟨o, i, false, m, n⟩ = (.ok false, ⟨o, i, false, m, n⟩) := rfl

theorem read_null_row (o : α) (i : β) (m : Bool) :
    j.read stores ⟨o, i, true, m, true⟩ = Record.join j.isInner (j.outer.read stores o) none := by
  funext field
  simp only [read, readPair, Record.join, Bool.and_true]
  split
  · rfl
  · rfl

theorem read_pair (o : α) (i : β) (m : Bool) :
    j.read stores ⟨o, i, true, m, false⟩ = j.pairWith stores o (j.inner.read stores i) := by
  funext field
  simp only [read, readPair, pairWith, Record.join, Bool.and_false, Bool.false_eq_true, if_false]

variable {inners : List Record} {start : β} {ahead : List Record}

/-- The matches of an outer row among some inner rows. -/
def found (j : Join α β) (stores : Stores) (o : α) (inner : List Record) : List Record :=
  (inner.map (j.pairWith stores o)).filter fun record => j.accepts stores record = .ok true

/-- The rows of an outer row, of which some inner rows are still to come: the matches among these, or the
row without one if there was none before either. -/
def remaining (j : Join α β) (stores : Stores) (o : α) (matched : Bool) (inner : List Record) :
    List Record :=
  if !matched && (j.found stores o inner).isEmpty then
    [Record.join j.isInner (j.outer.read stores o) none]
  else j.found stores o inner

theorem remaining_eq_joinedRows (o : α) (inner : List Record) :
    j.remaining stores o false inner =
      Plan.joinedRows j.isInner (j.accepts stores) inner (j.outer.read stores o) := rfl

theorem runFrom_next_of_sought {i : β} {m : Bool} {result : Checked Bool} {i' : β}
    (h : (seek (j.inner.next stores)
      (fun i => j.accepts stores (j.pairWith stores o (j.inner.read stores i)))
      (j.inner.rowBound stores + 1)).runFrom i = (result, i')) :
    (j.findMatch stores).runFrom ⟨o, i, true, m, false⟩ =
      (result, ⟨o, i', true, m || result = .ok true, false⟩) := by
  rw [runFrom_findMatch, h]
  rcases result with _ | _ | _ <;> simp

/-- The rows of the current outer row come first. What follows them is what follows once the inner rows
have ended. The induction is on their number, for one step may pass several of them. -/
theorem follows_remaining
    (after : ∀ s i m, (j.next stores).runFrom s = (j.resume stores).runFrom ⟨o, i, true, m, false⟩ →
      Follows (j.next stores) (j.read stores) fails s ahead)
    (n : Nat) {i : β} {inner : List Record} (m : Bool) (short : inner.length < n)
    (hi : Follows (j.inner.next stores) (j.inner.read stores) fails i inner)
    (bound : inner.length ≤ j.inner.rowBound stores)
    (bad : ∀ r ∈ inner, ∀ e, j.accepts stores (j.pairWith stores o r) = .error e → fails e) :
    Follows (j.next stores) (j.read stores) fails ⟨o, i, true, m, false⟩
      (j.remaining stores o m inner ++ ahead) := by
  induction n generalizing i inner m with
  | zero => exact absurd short (Nat.not_lt_zero _)
  | succ n ih =>
    have sought := hi.seek (fun r => j.accepts stores (j.pairWith stores o r))
      (Nat.lt_succ_of_le bound)
    generalize result :
      (seek (j.inner.next stores)
        (fun i => j.accepts stores (j.pairWith stores o (j.inner.read stores i)))
        (j.inner.rowBound stores + 1)).runFrom i = r at sought
    cases sought with
    | @none i' stays empty =>
      have nothing : j.found stores o inner = [] := by
        simp only [found, List.filter_map, Function.comp_def, empty, List.map_nil]
      have ended := runFrom_next_of_sought (m := m) result
      cases m with
      | true =>
        have rows : j.remaining stores o true inner = [] := by simp [remaining, nothing]
        rw [rows]
        exact after _ i' true (next_after_matches ended)
      | false =>
        have rows : j.remaining stores o false inner =
            [j.read stores ⟨o, i', true, false, true⟩] := by
          simp [remaining, nothing, read_null_row]
        have step : (j.next stores).runFrom ⟨o, i, true, false, false⟩ =
            (.ok true, ⟨o, i', true, false, true⟩) := by
          rw [runFrom_next_fresh, ended]
          rfl
        rw [rows]
        exact .row step (after _ i' false (next_after_null o i' false))
    | @found i' rest follows shorter sub eq =>
      have step : (j.next stores).runFrom ⟨o, i, true, m, false⟩ =
          (.ok true, ⟨o, i', true, true, false⟩) := by
        rw [runFrom_next, runFrom_next_of_sought result]
        simp
      have rows : j.remaining stores o m inner =
          j.read stores ⟨o, i', true, true, false⟩ :: j.remaining stores o true rest := by
        simp [remaining, found, List.filter_map, Function.comp_def, eq, read_pair]
      rw [rows]
      exact .row step (ih true (Nat.lt_of_lt_of_le shorter (Nat.le_of_lt_succ short)) follows
        (Nat.le_trans (Nat.le_of_lt shorter) bound) fun r mem => bad r (sub mem))
    | @failed i' e cause =>
      have step : (j.next stores).runFrom ⟨o, i, true, m, false⟩ =
          (.error e, ⟨o, i', true, m, false⟩) := by
        rw [runFrom_next, runFrom_next_of_sought result]
        simp
      refine .failed step ?_
      rcases cause with cause | ⟨r, mem, failed⟩
      · exact cause
      · exact bad r mem e failed

/-- From an outer row that has met no match yet, its rows follow and those of the outer rows after it. -/
theorem follows_fresh (rewinds : ∀ s, (j.inner.rewind stores).runFrom s = (.ok (), start))
    (all : Follows (j.inner.next stores) (j.inner.read stores) fails start inners)
    (bound : inners.length ≤ j.inner.rowBound stores) {outers : List Record}
    (ho : Follows (j.outer.next stores) (j.outer.read stores) fails o outers)
    (bad : ∀ r ∈ j.outer.read stores o :: outers, ∀ r' ∈ inners, ∀ e,
      j.accepts stores (Record.join j.isInner r (some r')) = .error e → fails e) :
    Follows (j.next stores) (j.read stores) fails ⟨o, start, true, false, false⟩
      ((j.outer.read stores o :: outers).flatMap
        (Plan.joinedRows j.isInner (j.accepts stores) inners)) := by
  rw [List.flatMap_cons, ← remaining_eq_joinedRows]
  induction ho with
  | @done o o' last _ =>
    refine follows_remaining (fun s i m same => ?_) _ false (Nat.lt_succ_self _) all bound
      (bad _ List.mem_cons_self)
    rw [runFrom_resume, last] at same
    simp only [rewinds] at same
    exact .done same (next_at_end _ _ _ _)
  | @row o o' outers moved _ ih =>
    refine follows_remaining (fun s i m same => ?_) _ false (Nat.lt_succ_self _) all bound
      (bad _ List.mem_cons_self)
    rw [runFrom_resume, moved] at same
    simp only [rewinds] at same
    exact (ih fun r mem => bad r (List.mem_cons_of_mem _ mem)).of_next_eq same
  | @failed o o' e outers broken cause =>
    refine follows_remaining (fun s i m same => ?_) _ false (Nat.lt_succ_self _) all bound
      (bad _ List.mem_cons_self)
    rw [runFrom_resume, broken] at same
    exact .failed same cause

theorem runFrom_rewind (s : JoinState α β) :
    (j.rewind stores).runFrom s =
      match (j.outer.rewind stores).runFrom s.outer with
      | (.error e, o) => (.error e, { s with outer := o })
      | (.ok (), o) =>
        match (j.outer.next stores).runFrom o with
        | (.error e, o) => (.error e, { s with outer := o })
        | (.ok more, o) =>
          match (j.inner.rewind stores).runFrom s.inner with
          | (.error e, i) => (.error e, { s with outer := o, inner := i, outerOnRow := more })
          | (.ok (), i) => (.ok (), ⟨o, i, more, false, false⟩) := by
  simp only [rewind, JoinState.onOuter, JoinState.onInner, Move.runFrom_bind, Move.runFrom_within]
  rcases (j.outer.rewind stores).runFrom s.outer with ⟨_ | _, o⟩
  · rfl
  simp only
  rcases (j.outer.next stores).runFrom o with ⟨_ | more, o⟩
  · rfl
  simp only [Move.runFrom_modify]
  rcases (j.inner.rewind stores).runFrom s.inner with ⟨_ | _, i⟩
  · rfl
  · rfl

theorem lists {outers : List Record} (ho : j.outer.Lists stores outers fails)
    (hi : j.inner.Lists stores inners fails) (bound : inners.length ≤ j.inner.rowBound stores)
    (bad : ∀ r ∈ outers, ∀ r' ∈ inners, ∀ e,
      j.accepts stores (Record.join j.isInner r (some r')) = .error e → fails e) :
    j.scan.Lists stores
      (outers.flatMap (Plan.joinedRows j.isInner (j.accepts stores) inners)) fails := by
  cases ho with
  | failed e broken cause =>
    refine .failed e (fun s => ?_) cause
    obtain ⟨t, h⟩ := broken s.outer
    refine ⟨{ s with outer := t }, ?_⟩
    change (j.rewind stores).runFrom s = _
    rw [runFrom_rewind, h]
  | ready outerStart outerRewinds ho =>
    -- The outer side is put on its first row before the inner side goes back, so its error comes first.
    cases ho with
    | @failed _ o e _ broken cause =>
      refine .failed e (fun s => ⟨{ s with outer := o }, ?_⟩) cause
      change (j.rewind stores).runFrom s = _
      rw [runFrom_rewind, outerRewinds]
      simp only [broken]
    | @done _ o last _ =>
      cases hi with
      | failed e broken cause =>
        refine .failed e (fun s => ?_) cause
        obtain ⟨t, h⟩ := broken s.inner
        refine ⟨{ s with outer := o, inner := t, outerOnRow := false }, ?_⟩
        change (j.rewind stores).runFrom s = _
        rw [runFrom_rewind, outerRewinds]
        simp only [last, h]
      | ready innerStart innerRewinds hi =>
        refine .ready ⟨o, innerStart, false, false, false⟩ (fun s => ?_)
          (.done (next_at_end _ _ _ _) (next_at_end _ _ _ _))
        change (j.rewind stores).runFrom s = _
        rw [runFrom_rewind, outerRewinds]
        simp only [last, innerRewinds]
    | @row _ o rest moved ho =>
      cases hi with
      | failed e broken cause =>
        refine .failed e (fun s => ?_) cause
        obtain ⟨t, h⟩ := broken s.inner
        refine ⟨{ s with outer := o, inner := t, outerOnRow := true }, ?_⟩
        change (j.rewind stores).runFrom s = _
        rw [runFrom_rewind, outerRewinds]
        simp only [moved, h]
      | ready innerStart innerRewinds hi =>
        refine .ready ⟨o, innerStart, true, false, false⟩ (fun s => ?_)
          (follows_fresh innerRewinds hi bound ho bad)
        change (j.rewind stores).runFrom s = _
        rw [runFrom_rewind, outerRewinds]
        simp only [moved, innerRewinds]

end RelEngine.Scan.Join
