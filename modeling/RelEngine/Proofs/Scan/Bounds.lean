import RelEngine.Plan.Eval
import RelEngine.Proofs.Scan.Joins
import RelEngine.Proofs.Scan.Positions
import RelEngine.Proofs.Scan.Products
import RelEngine.Scan.Views

/-!
How many rows can follow. The bound that a reader announces holds in every state, also in one that no reading
leads to, so seeking with more fuel than that ends only where the reader itself does.
-/
namespace RelEngine

variable {σ : Type} {next : Move σ Bool} {m n : Nat} {s t : σ}

/-- No more than `n` rows follow. -/
def AtMost (next : Move σ Bool) : Nat → σ → Prop
  | 0, s => ∀ t, next.runFrom s ≠ (.ok true, t)
  | n + 1, s => ∀ t, next.runFrom s = (.ok true, t) → AtMost next n t

theorem AtMost.step (h : AtMost next n s) (moved : next.runFrom s = (.ok true, t)) :
    ∃ m, m < n ∧ AtMost next m t := by
  cases n with
  | zero => exact absurd moved (h t)
  | succ n => exact ⟨n, Nat.lt_succ_self n, h t moved⟩

/-- A number that each row makes smaller bounds the rows that follow. -/
theorem AtMost.of_decreasing (measure : Nat → σ → Prop)
    (decreases : ∀ n s t, measure n s → next.runFrom s = (.ok true, t) → ∃ m, m < n ∧ measure m t)
    (h : measure m s) (le : m ≤ n) : AtMost next n s := by
  induction n generalizing m s with
  | zero =>
    intro t moved
    obtain ⟨_, less, _⟩ := decreases m s t h moved
    exact absurd (Nat.lt_of_lt_of_le less le) (Nat.not_lt_zero _)
  | succ n ih =>
    intro t moved
    obtain ⟨_, less, h'⟩ := decreases m s t h moved
    exact ih h' (Nat.le_of_lt_succ (Nat.lt_of_lt_of_le less le))

theorem AtMost.mono (h : AtMost next m s) (le : m ≤ n) : AtMost next n s :=
  of_decreasing (AtMost next) (fun _ _ _ h moved => h.step moved) h le

/-! ## Seeking -/

section Seek

variable {accepts : σ → Checked Bool} {fuel : Nat}

theorem runFrom_seek_succ (s : σ) :
    (seek next accepts (fuel + 1)).runFrom s =
      match next.runFrom s with
      | (.error e, t) => (.error e, t)
      | (.ok false, t) => (.ok false, t)
      | (.ok true, t) =>
        match accepts t with
        | .error e => (.error e, t)
        | .ok true => (.ok true, t)
        | .ok false => (seek next accepts fuel).runFrom t := by
  rw [seek, Move.runFrom_bind]
  rcases next.runFrom s with ⟨_ | more, t⟩
  · rfl
  cases more with
  | false => rfl
  | true =>
    simp only [↓reduceIte, Move.runFrom_bind, Move.runFrom_get, Move.runFrom_lift]
    cases accepts t with
    | error e => rfl
    | ok b =>
      cases b with
      | true => rfl
      | false => rfl

/-- Seeking passes at least the row that it finds. -/
theorem AtMost.seek_found (h : AtMost next n s) (found : (seek next accepts fuel).runFrom s = (.ok true, t)) :
    ∃ m, m < n ∧ AtMost next m t := by
  induction fuel generalizing n s with
  | zero => cases found
  | succ fuel ih =>
    rw [runFrom_seek_succ] at found
    rcases moved : next.runFrom s with ⟨e | more, u⟩
    · rw [moved] at found
      cases found
    rw [moved] at found
    cases more with
    | false => cases found
    | true =>
      obtain ⟨m, less, h'⟩ := h.step moved
      simp only at found
      cases accepted : accepts u with
      | error e =>
        rw [accepted] at found
        cases found
      | ok b =>
        rw [accepted] at found
        cases b with
        | true =>
          cases found
          exact ⟨m, less, h'⟩
        | false =>
          obtain ⟨m', less', h''⟩ := ih h' found
          exact ⟨m', Nat.lt_trans less' less, h''⟩

/-- With more fuel than rows, seeking ends where the reader does. -/
theorem AtMost.seek_ended (h : AtMost next n s) (enough : n < fuel)
    (ended : (seek next accepts fuel).runFrom s = (.ok false, t)) : ∃ u, next.runFrom u = (.ok false, t) := by
  induction fuel generalizing n s with
  | zero => exact absurd enough (Nat.not_lt_zero _)
  | succ fuel ih =>
    rw [runFrom_seek_succ] at ended
    rcases moved : next.runFrom s with ⟨e | more, u⟩
    · rw [moved] at ended
      cases ended
    rw [moved] at ended
    cases more with
    | false =>
      cases ended
      exact ⟨s, moved⟩
    | true =>
      obtain ⟨m, less, h'⟩ := h.step moved
      simp only at ended
      cases accepted : accepts u with
      | error e =>
        rw [accepted] at ended
        cases ended
      | ok b =>
        rw [accepted] at ended
        cases b with
        | true => cases ended
        | false => exact ih h' (Nat.lt_of_lt_of_le less (Nat.le_of_lt_succ enough)) ended

/-- With more fuel than rows, the amount of it is of no account. -/
theorem AtMost.seek_fuel {fuel' : Nat} (h : AtMost next n s) (enough : n < fuel) (enough' : n < fuel') :
    (seek next accepts fuel).runFrom s = (seek next accepts fuel').runFrom s := by
  induction n using Nat.strong_induction_on generalizing s fuel fuel' with
  | _ n ih =>
    obtain ⟨fuel, rfl⟩ := Nat.exists_eq_succ_of_ne_zero (Nat.ne_zero_of_lt enough)
    obtain ⟨fuel', rfl⟩ := Nat.exists_eq_succ_of_ne_zero (Nat.ne_zero_of_lt enough')
    rw [runFrom_seek_succ, runFrom_seek_succ]
    rcases moved : next.runFrom s with ⟨e | more, t⟩
    · rfl
    cases more with
    | false => rfl
    | true =>
      obtain ⟨m, less, few⟩ := h.step moved
      have same := ih m less few (Nat.lt_of_lt_of_le less (Nat.le_of_lt_succ enough))
        (Nat.lt_of_lt_of_le less (Nat.le_of_lt_succ enough'))
      simp only [same]

end Seek

namespace Scan

/-- The announced bound holds in every state. -/
def Bounded (scan : Scan σ) : Prop := ∀ stores s, AtMost (scan.next stores) (scan.rowBound stores) s

variable {α β : Type} {stores : Stores}

theorem bounded_single (value : Stores → Checked Value) (name : String) : (single value name).Bounded := by
  intro stores s t first u second
  cases first
  cases second

/-- A step passes the row that it goes to. -/
theorem bounded_table (t : TableView) : (table t).Bounded := by
  intro stores p
  refine AtMost.of_decreasing (fun n p => ((t.rows stores).ids.filter p.isBefore).length ≤ n) ?_
    (Nat.le_refl _) ?_
  · intro n p q bound moved
    rw [runFrom_table_next] at moved
    cases following : p.following? (t.rows stores) with
    | none =>
      rw [following] at moved
      cases moved
    | some here =>
      rw [following] at moved
      cases moved
      obtain ⟨isRow, toCome, -⟩ := Position.of_following? following
      refine ⟨_, Nat.lt_of_lt_of_le ?_ bound, Nat.le_refl _⟩
      have later : (t.rows stores).ids.filter (Position.onRow here).isBefore =
          ((t.rows stores).ids.filter p.isBefore).filter (Position.onRow here).isBefore := by
        rw [List.filter_filter]
        refine List.filter_congr fun id _ => ?_
        cases above : (Position.onRow here).isBefore id with
        | false => rfl
        | true => rw [Bool.true_and, p.isBefore_of_later toCome above]
      change ((t.rows stores).ids.filter (Position.onRow here).isBefore).length < _
      rw [later, List.length_filter_lt_length_iff_exists]
      exact ⟨here, List.mem_filter.2 ⟨isRow, toCome⟩, by simp [Position.isBefore]⟩
  · exact Nat.le_trans (List.length_filter_le _ _) (Nat.le_of_eq (List.length_map _))

section Views

variable {child : Scan σ}

theorem Bounded.select (h : child.Bounded) (accepts : Condition) : (child.select accepts).Bounded :=
  fun stores s =>
    .of_decreasing (AtMost (child.next stores)) (fun _ _ _ h found => h.seek_found found) (h stores s)
      (Nat.le_refl _)

/-- A selection passes over a row that is not accepted as if it stood there already. -/
theorem Bounded.runFrom_select_next (h : child.Bounded) (accepts : Condition) (stores : Stores) (s : σ) :
    ((child.select accepts).next stores).runFrom s =
      match (child.next stores).runFrom s with
      | (.error e, t) => (.error e, t)
      | (.ok false, t) => (.ok false, t)
      | (.ok true, t) =>
        match accepts stores (child.read stores t) with
        | .error e => (.error e, t)
        | .ok true => (.ok true, t)
        | .ok false => ((child.select accepts).next stores).runFrom t := by
  simp only [Scan.select]
  rw [runFrom_seek_succ]
  rcases moved : (child.next stores).runFrom s with ⟨e | more, t⟩
  · rfl
  cases more with
  | false => rfl
  | true =>
    simp only
    cases accepts stores (child.read stores t) with
    | error e => rfl
    | ok accepted =>
      cases accepted with
      | true => rfl
      | false =>
        obtain ⟨n, less, few⟩ := (h stores s).step moved
        exact few.seek_fuel less (Nat.lt_succ_of_lt less)

theorem Bounded.extend (h : child.Bounded) (value : Stores → (String → Checked Value) → Checked Value)
    (name : String) : (child.extend value name).Bounded :=
  h

theorem Bounded.project (h : child.Bounded) (fields : List String) : (child.project fields).Bounded := h

end Views

/-- The right rows of the current left row are followed by all right rows for each left row after it. -/
theorem Bounded.product {left : Scan α} {right : Scan β} (hl : left.Bounded) (hr : right.Bounded) :
    (left.product right).Bounded := by
  intro stores s
  refine AtMost.of_decreasing
    (fun n s => ∃ l r, AtMost (left.next stores) l s.left ∧ AtMost (right.next stores) r s.right ∧
      l * right.rowBound stores + r ≤ n) ?_
    ⟨_, _, hl stores s.left, hr stores s.right, Nat.le_refl _⟩ (Nat.le_of_eq (Nat.succ_mul _ _).symm)
  rintro n ⟨l, r, onRow⟩ t ⟨a, b, lefts, rights, bound⟩ moved
  cases onRow with
  | false =>
    rw [product_next_at_end] at moved
    cases moved
  | true =>
    rcases product_next_eq_ok moved with ⟨r', stepped, -, rfl⟩ | ⟨l', r₁, r₂, advanced, -, stepped, going⟩
    · obtain ⟨b', less, rights'⟩ := rights.step stepped
      exact ⟨_, Nat.lt_of_lt_of_le (Nat.add_lt_add_left less _) bound, a, b', lefts, rights', Nat.le_refl _⟩
    · rcases going with ⟨-, ⟨⟩, -⟩ | ⟨rfl, r', first, rfl⟩
      obtain ⟨a', lessLeft, lefts'⟩ := lefts.step stepped
      obtain ⟨b', lessRight, rights'⟩ := (hr stores r₂).step first
      refine ⟨a' * right.rowBound stores + b', ?_, a', b', lefts', rights', Nat.le_refl _⟩
      calc a' * right.rowBound stores + b'
          < a' * right.rowBound stores + right.rowBound stores := Nat.add_lt_add_left lessRight _
        _ = (a' + 1) * right.rowBound stores := (Nat.succ_mul _ _).symm
        _ ≤ a * right.rowBound stores := Nat.mul_le_mul_right _ lessLeft
        _ ≤ n := Nat.le_trans (Nat.le_add_right _ _) bound

namespace Join

variable {j : Join α β} {t : JoinState α β} {a b : Nat} {o : α} {i : β} {matched : Bool}

/-- What bounds the rows of a join. Each outer row has no more rows than the inner side and one; of the current
one, at most one row more than the inner rows to come is left, and none after the row without a match. -/
inductive Left (j : Join α β) (stores : Stores) : Nat → JoinState α β → Prop
  | onNull {n a o i onRow matched} : AtMost (j.outer.next stores) a o →
      a * (j.inner.rowBound stores + 1) ≤ n → Left j stores n ⟨o, i, onRow, matched, true⟩
  | onPair {n a b o i onRow matched} : AtMost (j.outer.next stores) a o → AtMost (j.inner.next stores) b i →
      a * (j.inner.rowBound stores + 1) + (b + 1) ≤ n → Left j stores n ⟨o, i, onRow, matched, false⟩

/-- An outer row without a match so far gives its first match or the row without one. -/
theorem left_of_fresh (outers : AtMost (j.outer.next stores) a o) (inners : AtMost (j.inner.next stores) b i)
    (moved : (j.next stores).runFrom ⟨o, i, true, false, false⟩ = (.ok true, t)) :
    ∃ n, n < a * (j.inner.rowBound stores + 1) + (b + 1) ∧ j.Left stores n t := by
  rcases fresh_eq_ok moved with ⟨-, i', ⟨found, rfl⟩ | rfl⟩
  · obtain ⟨b', less, inners'⟩ := inners.seek_found found
    exact ⟨_, Nat.add_lt_add_left (Nat.succ_lt_succ less) _, .onPair outers inners' (Nat.le_refl _)⟩
  · exact ⟨_, Nat.lt_add_of_pos_right (Nat.succ_pos _), .onNull outers (Nat.le_refl _)⟩

/-- To go on after an outer row takes one from those that follow. -/
theorem left_of_resume (hi : j.inner.Bounded) (outers : AtMost (j.outer.next stores) a o)
    (moved : (j.resume stores).runFrom ⟨o, i, true, matched, false⟩ = (.ok true, t)) :
    ∃ n, n < a * (j.inner.rowBound stores + 1) ∧ j.Left stores n t := by
  obtain ⟨o', i', advanced, stepped, moved⟩ := resume_eq_ok moved
  cases advanced with
  | false => cases moved
  | true =>
    obtain ⟨a', less, outers'⟩ := outers.step stepped
    obtain ⟨n, fewer, left⟩ := left_of_fresh outers' (hi stores i') moved
    refine ⟨n, ?_, left⟩
    calc n < a' * (j.inner.rowBound stores + 1) + (j.inner.rowBound stores + 1) := fewer
      _ = (a' + 1) * (j.inner.rowBound stores + 1) := (Nat.succ_mul _ _).symm
      _ ≤ a * (j.inner.rowBound stores + 1) := Nat.mul_le_mul_right _ less

theorem Left.step (hi : j.inner.Bounded) {n : Nat} {s : JoinState α β} (left : j.Left stores n s)
    (moved : (j.next stores).runFrom s = (.ok true, t)) : ∃ m, m < n ∧ j.Left stores m t := by
  cases left with
  | @onNull a o i onRow matched outers bound =>
    cases onRow with
    | false => cases moved
    | true =>
      rw [next_after_null] at moved
      obtain ⟨m, fewer, left⟩ := left_of_resume hi outers moved
      exact ⟨m, Nat.lt_of_lt_of_le fewer bound, left⟩
  | @onPair a b o i onRow matched outers inners bound =>
    cases onRow with
    | false => cases moved
    | true =>
      rcases next_eq_ok moved with ⟨-, -, i', ⟨found, rfl⟩ | rfl⟩ | ⟨i', resumed⟩
      · obtain ⟨b', less, inners'⟩ := inners.seek_found found
        have fewer := Nat.add_lt_add_left (Nat.succ_lt_succ less) (a * (j.inner.rowBound stores + 1))
        exact ⟨_, Nat.lt_of_lt_of_le fewer bound, .onPair outers inners' (Nat.le_refl _)⟩
      · have fewer : a * (j.inner.rowBound stores + 1) < a * (j.inner.rowBound stores + 1) + (b + 1) :=
          Nat.lt_add_of_pos_right (Nat.succ_pos _)
        exact ⟨_, Nat.lt_of_lt_of_le fewer bound, .onNull outers (Nat.le_refl _)⟩
      · obtain ⟨m, fewer, left⟩ := left_of_resume hi outers resumed
        exact ⟨m, Nat.lt_of_lt_of_le fewer (Nat.le_trans (Nat.le_add_right _ _) bound), left⟩

theorem bounded (ho : j.outer.Bounded) (hi : j.inner.Bounded) : j.scan.Bounded := by
  rintro stores ⟨o, i, onRow, matched, null⟩
  have all : (j.outer.rowBound stores + 1) * (j.inner.rowBound stores + 1) =
      j.outer.rowBound stores * (j.inner.rowBound stores + 1) + (j.inner.rowBound stores + 1) := Nat.succ_mul _ _
  refine AtMost.of_decreasing (j.Left stores) (fun _ _ _ left moved => left.step hi moved) ?_
    (Nat.le_of_eq all.symm)
  cases null with
  | true => exact .onNull (ho stores o) (Nat.le_add_right _ _)
  | false => exact .onPair (ho stores o) (hi stores i) (Nat.le_refl _)

end Join

end Scan

namespace Plan

/-- The reader of a plan never gives more rows than it announces. -/
theorem bounded : (plan : Plan) → plan.scan.Bounded
  | .table view => Scan.bounded_table view
  | .product left right => left.bounded.product right.bounded
  | .select child _ => child.bounded.select _
  | .join outer inner _ _ => Scan.Join.bounded outer.bounded inner.bounded
  | .extend child _ name => child.bounded.extend _ name
  | .single _ name => Scan.bounded_single _ name
  | .project child fields => child.bounded.project fields

end Plan

end RelEngine
