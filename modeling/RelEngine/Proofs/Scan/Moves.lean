import RelEngine.Scan.Basic

/-!
Running moves: one equation for each way in which moves are put together. What a move does to a state is
read off with these and never by unfolding the monad.
-/
namespace RelEngine.Move

variable {σ τ α β : Type}

@[simp]
theorem runFrom_pure (a : α) (s : σ) : (pure a : Move σ α).runFrom s = (.ok a, s) := rfl

@[simp]
theorem runFrom_throw (e : Error) (s : σ) : (throw e : Move σ α).runFrom s = (.error e, s) := rfl

@[simp]
theorem runFrom_get (s : σ) : (get : Move σ σ).runFrom s = (.ok s, s) := rfl

@[simp]
theorem runFrom_set (t s : σ) : (set t : Move σ PUnit).runFrom s = (.ok ⟨⟩, t) := rfl

@[simp]
theorem runFrom_modify (f : σ → σ) (s : σ) :
    (modify f : Move σ PUnit).runFrom s = (.ok ⟨⟩, f s) := rfl

/-- A result without a state is a move that stays. -/
@[simp]
theorem runFrom_lift (c : Checked α) (s : σ) : (liftM c : Move σ α).runFrom s = (c, s) := by
  cases c <;> rfl

theorem runFrom_bind (m : Move σ α) (f : α → Move σ β) (s : σ) :
    (m >>= f).runFrom s =
      match m.runFrom s with
      | (.ok a, t) => (f a).runFrom t
      | (.error e, t) => (.error e, t) := by
  change (ExceptT.bindCont f (m.runFrom s).1).run (m.runFrom s).2 = _
  rcases m.runFrom s with ⟨_ | a, t⟩
  · rfl
  · rfl

theorem runFrom_bind_ok {m : Move σ α} {f : α → Move σ β} {s t : σ} {a : α}
    (h : m.runFrom s = (.ok a, t)) : (m >>= f).runFrom s = (f a).runFrom t := by
  rw [runFrom_bind, h]

theorem runFrom_bind_error {m : Move σ α} {f : α → Move σ β} {s t : σ} {e : Error}
    (h : m.runFrom s = (.error e, t)) : (m >>= f).runFrom s = (.error e, t) := by
  rw [runFrom_bind, h]

/-- What holds after a step in either outcome holds after two of them. -/
theorem state_bind {P : σ → Prop} {m : Move σ α} {f : α → Move σ β} {s : σ}
    (broken : ∀ e t, m.runFrom s = (.error e, t) → P t)
    (done : ∀ a t, m.runFrom s = (.ok a, t) → P ((f a).runFrom t).2) :
    P ((m >>= f).runFrom s).2 := by
  rw [runFrom_bind]
  rcases result : m.runFrom s with ⟨e | a, t⟩
  · exact broken e t result
  · exact done a t result

/-- What every step over a list keeps is kept by all of them, also if one of them fails. -/
theorem forM_invariant {P : σ → Prop} {f : α → Move σ PUnit} {l : List α} {s : σ}
    (step : ∀ a ∈ l, ∀ s, P s → P ((f a).runFrom s).2) (h : P s) : P ((l.forM f).runFrom s).2 := by
  induction l generalizing s with
  | nil => exact h
  | cons a l ih =>
    have first := step a List.mem_cons_self s h
    refine state_bind (fun e t broken => ?_) fun _ t done => ?_
    · rw [broken] at first
      exact first
    · rw [done] at first
      exact ih (fun a mem => step a (List.mem_cons_of_mem _ mem)) first

/-- Steps that only come to a result, one for each entry of a list. -/
theorem runFrom_forM_of {f : α → Move σ PUnit} {c : α → Checked PUnit} {l : List α} {s : σ}
    (each : ∀ a ∈ l, (f a).runFrom s = (c a, s)) : (l.forM f).runFrom s = (l.forM c, s) := by
  induction l with
  | nil => rfl
  | cons a l ih =>
    rw [List.forM, List.forM, runFrom_bind, each a List.mem_cons_self]
    cases c a with
    | error e => rfl
    | ok _ => exact ih fun a mem => each a (List.mem_cons_of_mem _ mem)

theorem runFrom_forM_singleton (f : α → Move σ PUnit) (a : α) (s : σ) :
    ([a].forM f).runFrom s = (f a).runFrom s := by
  rw [List.forM, runFrom_bind]
  rcases (f a).runFrom s with ⟨_ | _, t⟩
  · rfl
  · rfl

/-! ## Results without a state -/

theorem runFrom_mapM_lift (f : α → Checked β) (l : List α) (s : σ) :
    (l.mapM fun a => (liftM (f a) : Move σ β)).runFrom s = (l.mapM f, s) := by
  induction l with
  | nil => rfl
  | cons a l ih =>
    rw [List.mapM_cons, List.mapM_cons, runFrom_bind, runFrom_lift]
    cases f a with
    | error e => rfl
    | ok b =>
      simp only [runFrom_bind, ih]
      cases l.mapM f with
      | error e => rfl
      | ok bs => rfl

theorem runFrom_optionMapM_lift (f : α → Checked β) (a? : Option α) (s : σ) :
    (a?.mapM fun a => (liftM (f a) : Move σ β)).runFrom s = (a?.mapM f, s) := by
  cases a? with
  | none => rfl
  | some a =>
    change (liftM (f a) >>= fun b => pure (some b) : Move σ (Option β)).runFrom s =
      (f a >>= fun b => pure (some b), s)
    rw [runFrom_bind, runFrom_lift]
    cases f a with
    | error e => rfl
    | ok b => rfl

/-- A step that only computes a result, before others. -/
theorem bind_result {P : Checked β × σ → Prop} {m : Move σ α} {c : Checked α} {f : α → Move σ β}
    {s : σ} (result : m.runFrom s = (c, s)) (failed : ∀ e, c = .error e → P (.error e, s))
    (done : ∀ a, c = .ok a → P ((f a).runFrom s)) : P ((m >>= f).runFrom s) := by
  rw [runFrom_bind, result]
  cases c with
  | error e => exact failed e rfl
  | ok a => exact done a rfl

theorem state_bind_result {P : σ → Prop} {m : Move σ α} {c : Checked α} {f : α → Move σ β} {s : σ}
    (result : m.runFrom s = (c, s)) (stays : P s) (done : ∀ a, c = .ok a → P ((f a).runFrom s).2) :
    P ((m >>= f).runFrom s).2 :=
  bind_result (P := fun x => P x.2) result (fun _ _ => stays) done

theorem state_bind_lift {P : σ → Prop} {c : Checked α} {f : α → Move σ β} {s : σ} (stays : P s)
    (done : ∀ a, c = .ok a → P ((f a).runFrom s).2) : P (((liftM c : Move σ α) >>= f).runFrom s).2 :=
  state_bind_result (runFrom_lift c s) stays done

theorem runFrom_ite (c : Prop) [Decidable c] (m m' : Move σ α) (s : σ) :
    (if c then m else m').runFrom s = if c then m.runFrom s else m'.runFrom s := by
  split
  · rfl
  · rfl

theorem runFrom_within (get : σ → τ) (put : τ → σ → σ) (m : Move τ α) (s : σ) :
    (within get put m).runFrom s = ((m.runFrom (get s)).1, put (m.runFrom (get s)).2 s) := rfl

end RelEngine.Move
