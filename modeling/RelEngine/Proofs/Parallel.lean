import RelEngine.Proofs.Checked
import RelEngine.Proofs.Scan.Moves

/-!
Two computations side by side. Loops over lists that go together meet the same results at each place, and
moves from states that go together end in such states, with the same result.
-/
namespace RelEngine

variable {α β γ σ τ : Type}

namespace Checked

/-- The same error on both sides, or results that go together. -/
inductive Related (V : α → β → Prop) : Checked α → Checked β → Prop
  | ok {a b} : V a b → Related V (.ok a) (.ok b)
  | error (e) : Related V (.error e) (.error e)

theorem Related.bind_eq {V : α → β → Prop} {x : Checked α} {y : Checked β} {f : α → Checked γ}
    {g : β → Checked γ} (h : Related V x y) (same : ∀ a b, V a b → g b = f a) :
    (y >>= g) = (x >>= f) := by
  cases h with
  | ok related => exact same _ _ related
  | error e => rfl

/-! ## Loops -/

variable {l : List α} {l' : List β}

theorem anyM_eq_of_forall₂ {p : α → Checked Bool} {q : β → Checked Bool}
    (h : List.Forall₂ (fun a b => q b = p a) l l') : l'.anyM q = l.anyM p := by
  induction h with
  | nil => rfl
  | cons head _ ih => rw [List.anyM, List.anyM, head, ih]

theorem forM_eq_of_forall₂ {f : α → Checked Unit} {g : β → Checked Unit}
    (h : List.Forall₂ (fun a b => g b = f a) l l') : l'.forM g = l.forM f := by
  induction h with
  | nil => rfl
  | cons head _ ih => rw [List.forM, List.forM, head, ih]

theorem mapM_eq_of_forall₂ {f : α → Checked γ} {g : β → Checked γ}
    (h : List.Forall₂ (fun a b => g b = f a) l l') : l'.mapM g = l.mapM f := by
  induction h with
  | nil => rfl
  | cons head _ ih => rw [List.mapM_cons, List.mapM_cons, head, ih]

theorem foldlM_eq_of_forall₂ {f : γ → α → Checked γ} {g : γ → β → Checked γ}
    (h : List.Forall₂ (fun a b => ∀ c, g c b = f c a) l l') (c : γ) : l'.foldlM g c = l.foldlM f c := by
  induction h generalizing c with
  | nil => rfl
  | cons head _ ih =>
    rw [List.foldlM_cons, List.foldlM_cons, head]
    exact congrArg (_ >>= ·) (funext ih)

end Checked

namespace Move

/-- The same result on both sides, in states that go together. -/
structure Agree (R : σ → τ → Prop) (x : Checked α × σ) (y : Checked α × τ) : Prop where
  result : y.1 = x.1
  states : R x.2 y.2

variable {R R' : σ → τ → Prop} {s : σ} {t : τ}

theorem Agree.weaken {x : Checked α × σ} {y : Checked α × τ} (h : Agree R x y)
    (more : ∀ s t, R s t → R' s t) : Agree R' x y :=
  ⟨h.result, more _ _ h.states⟩

theorem Agree.bind {m : Move σ α} {m' : Move τ α} {f : α → Move σ β} {f' : α → Move τ β}
    (first : Agree R (m.runFrom s) (m'.runFrom t)) (more : ∀ s t, R s t → R' s t)
    (next : ∀ a s t, R s t → Agree R' ((f a).runFrom s) ((f' a).runFrom t)) :
    Agree R' ((m >>= f).runFrom s) ((m' >>= f').runFrom t) := by
  rw [runFrom_bind, runFrom_bind]
  obtain ⟨result, states⟩ := first
  generalize m.runFrom s = x at result states
  generalize m'.runFrom t = y at result states
  obtain ⟨x, s'⟩ := x
  obtain ⟨y, t'⟩ := y
  cases result
  cases x with
  | error e => exact ⟨rfl, more s' t' states⟩
  | ok a => exact next a s' t' states

/-- Two steps that only compute results, which go together, before others. -/
theorem agree_bind_of_related {α' : Type} {V : α → α' → Prop} {m : Move σ α} {m' : Move τ α'}
    {c : Checked α} {c' : Checked α'} {f : α → Move σ β} {f' : α' → Move τ β}
    (run : m.runFrom s = (c, s)) (run' : m'.runFrom t = (c', t)) (related : Checked.Related V c c')
    (start : R s t)
    (next : ∀ a a', c = .ok a → c' = .ok a' → V a a' → Agree R ((f a).runFrom s) ((f' a').runFrom t)) :
    Agree R ((m >>= f).runFrom s) ((m' >>= f').runFrom t) := by
  rw [runFrom_bind, runFrom_bind, run, run']
  cases related with
  | ok values => exact next _ _ rfl rfl values
  | error e => exact ⟨rfl, start⟩

theorem agree_bind_of_eq {m : Move σ α} {m' : Move τ α} {c c' : Checked α} {f : α → Move σ β}
    {f' : α → Move τ β} (run : m.runFrom s = (c, s)) (run' : m'.runFrom t = (c', t)) (same : c' = c)
    (start : R s t) (next : ∀ a, c = .ok a → Agree R ((f a).runFrom s) ((f' a).runFrom t)) :
    Agree R ((m >>= f).runFrom s) ((m' >>= f').runFrom t) := by
  subst same
  have related : Checked.Related (· = ·) c' c' := by
    cases c' with
    | error e => exact .error e
    | ok a => exact .ok rfl
  refine agree_bind_of_related run run' related start fun a a' isResult _ eq => ?_
  cases eq
  exact next a isResult

theorem agree_bind_lift {c c' : Checked α} {f : α → Move σ β} {f' : α → Move τ β} (same : c' = c)
    (start : R s t) (next : ∀ a, c = .ok a → Agree R ((f a).runFrom s) ((f' a).runFrom t)) :
    Agree R (((liftM c : Move σ α) >>= f).runFrom s) (((liftM c' : Move τ α) >>= f').runFrom t) :=
  agree_bind_of_eq (runFrom_lift c s) (runFrom_lift c' t) same start next

theorem agree_bind_get {f : σ → Move σ β} {f' : τ → Move τ β}
    (next : Agree R ((f s).runFrom s) ((f' t).runFrom t)) :
    Agree R ((get >>= f).runFrom s) ((get >>= f').runFrom t) := by
  rw [runFrom_bind_ok (runFrom_get s), runFrom_bind_ok (runFrom_get t)]
  exact next

/-- A loop on both sides over lists that go together. -/
theorem agree_forM {P : α → β → Prop} {l : List α} {l' : List β} {f : α → Move σ PUnit}
    {f' : β → Move τ PUnit} (h : List.Forall₂ P l l')
    (step : ∀ a b, P a b → ∀ s t, R s t → Agree R ((f a).runFrom s) ((f' b).runFrom t)) (start : R s t) :
    Agree R ((l.forM f).runFrom s) ((l'.forM f').runFrom t) := by
  induction h generalizing s t with
  | nil => exact ⟨rfl, start⟩
  | @cons a b l l' head _ ih =>
    rw [List.forM, List.forM]
    refine (step a b head s t start).bind (fun _ _ h => h) fun _ s t related => ?_
    exact ih related

end Move

end RelEngine
