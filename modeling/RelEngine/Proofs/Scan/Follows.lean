import RelEngine.Plan.Rows
import RelEngine.Proofs.Scan.Moves

/-!
What a reader gives from a state on, as a list, and what it gives after it went back to its start.

A reading that fails may have any rows still before it, so one list describes both a complete reading and
one that an error ends early.
-/
namespace RelEngine

variable {σ τ ρ : Type} {next : Move σ Bool} {look : σ → ρ} {fails : Error → Prop}

/-- From the state on, the reader gives these rows and then no more, or an error on the way. -/
inductive Follows (next : Move σ Bool) (look : σ → ρ) (fails : Error → Prop) : σ → List ρ → Prop
  | done {s t} : next.runFrom s = (.ok false, t) → next.runFrom t = (.ok false, t) →
      Follows next look fails s []
  | row {s t rest} : next.runFrom s = (.ok true, t) → Follows next look fails t rest →
      Follows next look fails s (look t :: rest)
  | failed {s t e rows} : next.runFrom s = (.error e, t) → fails e →
      Follows next look fails s rows

/-- Two states from which the next step is the same have the same rows before them. -/
theorem Follows.of_next_eq {s t : σ} {rows : List ρ} (h : Follows next look fails t rows)
    (same : next.runFrom s = next.runFrom t) : Follows next look fails s rows := by
  cases h with
  | done last stays => exact .done (same.trans last) stays
  | row moved rest => exact .row (same.trans moved) rest
  | failed broken cause => exact .failed (same.trans broken) cause

theorem Follows.weaken {fails' : Error → Prop} {s : σ} {rows : List ρ}
    (h : Follows next look fails s rows) (le : ∀ e, fails e → fails' e) :
    Follows next look fails' s rows := by
  induction h with
  | done last stays => exact .done last stays
  | row moved _ ih => exact .row moved ih
  | failed broken cause => exact .failed broken (le _ cause)

/-- Rows may be looked at in another way. -/
theorem Follows.map {ρ' : Type} {look' : σ → ρ'} (f : ρ → ρ') (same : ∀ s, look' s = f (look s))
    {s : σ} {rows : List ρ} (h : Follows next look fails s rows) :
    Follows next look' fails s (rows.map f) := by
  induction h with
  | done last stays => exact .done last stays
  | @row s t rest moved _ ih =>
    rw [List.map_cons, ← same]
    exact .row moved ih
  | failed broken cause => exact .failed broken cause

/-! ## Seeking -/

section Seek

variable {accepts : ρ → Checked Bool} {s : σ} {rows : List ρ} {fuel : Nat}

/-- What came of seeking an accepted row among those that follow. -/
inductive Sought (next : Move σ Bool) (look : σ → ρ) (fails : Error → Prop)
    (accepts : ρ → Checked Bool) (rows : List ρ) : Checked Bool × σ → Prop
  | none {t} : next.runFrom t = (.ok false, t) → (rows.filter fun r => accepts r = .ok true) = [] →
      Sought next look fails accepts rows (.ok false, t)
  | found {t rest} : Follows next look fails t rest → rest.length < rows.length → rest ⊆ rows →
      (rows.filter fun r => accepts r = .ok true) =
        look t :: (rest.filter fun r => accepts r = .ok true) →
      Sought next look fails accepts rows (.ok true, t)
  | failed {t e} : fails e ∨ (∃ r ∈ rows, accepts r = .error e) →
      Sought next look fails accepts rows (.error e, t)

theorem Sought.cons {r : ρ} (refused : accepts r = .ok false) {result : Checked Bool × σ}
    (h : Sought next look fails accepts rows result) :
    Sought next look fails accepts (r :: rows) result := by
  have skip : ((r :: rows).filter fun r => accepts r = .ok true) =
      rows.filter fun r => accepts r = .ok true :=
    List.filter_cons_of_neg (by simp [refused])
  cases h with
  | none stays empty => exact .none stays (skip.trans empty)
  | found follows shorter sub eq =>
    exact .found follows (Nat.lt_succ_of_lt shorter) (List.subset_cons_of_subset r sub)
      (skip.trans eq)
  | failed cause =>
    refine .failed (cause.imp_right ?_)
    rintro ⟨x, mem, bad⟩
    exact ⟨x, List.mem_cons_of_mem r mem, bad⟩

/-- With more fuel than rows, seeking stops at the first accepted row, at an error or at the end. -/
theorem Follows.seek (accepts : ρ → Checked Bool) (h : Follows next look fails s rows)
    (enough : rows.length < fuel) :
    Sought next look fails accepts rows
      ((RelEngine.seek next (fun s => accepts (look s)) fuel).runFrom s) := by
  induction h generalizing fuel with
  | done last stays =>
    obtain ⟨fuel, rfl⟩ := Nat.exists_eq_succ_of_ne_zero (Nat.ne_zero_of_lt enough)
    rw [RelEngine.seek, Move.runFrom_bind_ok last]
    exact .none stays rfl
  | @row s t rest moved follows ih =>
    obtain ⟨fuel, rfl⟩ := Nat.exists_eq_succ_of_ne_zero (Nat.ne_zero_of_lt enough)
    rw [RelEngine.seek, Move.runFrom_bind_ok moved]
    simp only [↓reduceIte, Move.runFrom_bind, Move.runFrom_get, Move.runFrom_lift]
    cases accepted : accepts (look t) with
    | error e => exact .failed (.inr ⟨look t, List.mem_cons_self, accepted⟩)
    | ok b =>
      cases b with
      | true =>
        refine .found follows (Nat.lt_succ_self _) (List.subset_cons_self _ _) ?_
        exact List.filter_cons_of_pos (by simp [accepted])
      | false => exact (ih (Nat.lt_of_succ_lt_succ enough)).cons accepted
  | failed broken cause =>
    obtain ⟨fuel, rfl⟩ := Nat.exists_eq_succ_of_ne_zero (Nat.ne_zero_of_lt enough)
    rw [RelEngine.seek, Move.runFrom_bind_error broken]
    exact .failed (.inl cause)

/-- At the end nothing is found, and the reader stays where it is. -/
theorem seek_at_end {accepts : σ → Checked Bool} {t : σ} (stays : next.runFrom t = (.ok false, t))
    (fuel : Nat) : (seek next accepts fuel).runFrom t = (.ok false, t) := by
  cases fuel with
  | zero => rfl
  | succ fuel =>
    rw [seek, Move.runFrom_bind_ok stays]
    rfl

/-- Seeking in a part of a state moves that part only. -/
theorem runFrom_seek_within (get : σ → τ) (put : τ → σ → σ) (get_put : ∀ t s, get (put t s) = t)
    (put_put : ∀ t t' s, put t (put t' s) = put t s) (put_get : ∀ s, put (get s) s = s)
    (next : Move τ Bool) (accepts : σ → Checked Bool) (fuel : Nat) (s : σ) :
    (seek (Move.within get put next) accepts fuel).runFrom s =
      (((seek next (fun t => accepts (put t s)) fuel).runFrom (get s)).1,
        put ((seek next (fun t => accepts (put t s)) fuel).runFrom (get s)).2 s) := by
  induction fuel generalizing s with
  | zero =>
    change (Except.ok false, s) = (Except.ok false, put (get s) s)
    rw [put_get]
  | succ fuel ih =>
    simp only [seek, Move.runFrom_bind, Move.runFrom_within]
    rcases next.runFrom (get s) with ⟨_ | moved, t⟩
    · rfl
    · cases moved with
      | false => rfl
      | true =>
        simp only [↓reduceIte, Move.runFrom_bind, Move.runFrom_get, Move.runFrom_lift]
        cases accepts (put t s) with
        | error e => rfl
        | ok b =>
          cases b with
          | true => rfl
          | false =>
            simp only [Bool.false_eq_true, ↓reduceIte]
            rw [ih]
            simp only [get_put, put_put]

end Seek

/-! ## Readers that go back to their start -/

/-- Wherever the reader stands, going back brings it to one start, and these rows follow from there; or
going back fails wherever it stands. -/
inductive Scan.Lists (scan : Scan σ) (stores : Stores) (rows : List Record)
    (fails : Error → Prop) : Prop
  | ready (start : σ) : (∀ s, (scan.rewind stores).runFrom s = (.ok (), start)) →
      Follows (scan.next stores) (scan.read stores) fails start rows → Scan.Lists scan stores rows fails
  | failed (e : Error) : (∀ s, ∃ t, (scan.rewind stores).runFrom s = (.error e, t)) → fails e →
      Scan.Lists scan stores rows fails

theorem Scan.Lists.weaken {scan : Scan σ} {stores : Stores} {rows : List Record}
    {fails' : Error → Prop} (h : scan.Lists stores rows fails) (le : ∀ e, fails e → fails' e) :
    scan.Lists stores rows fails' := by
  cases h with
  | ready start rewinds follows => exact .ready start rewinds (follows.weaken le)
  | failed e broken cause => exact .failed e broken (le e cause)

end RelEngine
