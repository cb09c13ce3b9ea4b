import Mathlib.Data.List.Forall2
import RelEngine.Error

/-!
What a composed result came from, and results compared by their values alone. Two computations that meet
the same errors in another order agree in this sense.
-/
namespace RelEngine

theorem exists_of_mem_left {α β : Type} {R : α → β → Prop} {l : List α} {l' : List β}
    (h : List.Forall₂ R l l') {a : α} (mem : a ∈ l) : ∃ b ∈ l', R a b := by
  induction h with
  | nil => exact nomatch mem
  | cons head _ ih =>
    rcases List.mem_cons.1 mem with rfl | mem
    · exact ⟨_, List.mem_cons_self, head⟩
    · obtain ⟨b, mem, related⟩ := ih mem
      exact ⟨b, List.mem_cons_of_mem _ mem, related⟩

theorem forall₂_imp_of_mem {α β : Type} {R S : α → β → Prop} {l : List α} {l' : List β}
    (h : List.Forall₂ R l l') (imp : ∀ a ∈ l, ∀ b, R a b → S a b) : List.Forall₂ S l l' := by
  induction h with
  | nil => exact .nil
  | cons head _ ih =>
    exact .cons (imp _ List.mem_cons_self _ head) (ih fun a mem => imp a (List.mem_cons_of_mem _ mem))

theorem exists_mem_zip {α β : Type} {l : List α} {l' : List β} (length : l.length ≤ l'.length) {a : α}
    (mem : a ∈ l) : ∃ b, (a, b) ∈ l.zip l' := by
  rw [← List.map_fst_zip length] at mem
  obtain ⟨⟨_, b⟩, isPair, rfl⟩ := List.mem_map.1 mem
  exact ⟨b, isPair⟩

/-- Two lists that go with a third one, side by side. -/
theorem forall₂_zip_left {α β γ : Type} {R : α → γ → Prop} {S : β → γ → Prop} {l : List α} {m : List β}
    {n : List γ} (left : List.Forall₂ R l n) (right : List.Forall₂ S m n) :
    List.Forall₂ (fun e c => R e.1 c ∧ S e.2 c) (l.zip m) n := by
  induction left generalizing m with
  | nil =>
    cases right
    exact .nil
  | cons head _ ih =>
    cases right with
    | cons head' tail' => exact .cons ⟨head, head'⟩ (ih tail')

namespace Checked

variable {α β : Type}

theorem bind_eq_ok {x : Checked α} {f : α → Checked β} {b : β} :
    (x >>= f) = .ok b ↔ ∃ a, x = .ok a ∧ f a = .ok b := by
  constructor
  · intro h
    cases x with
    | error e => cases h
    | ok a => exact ⟨a, rfl, h⟩
  · rintro ⟨a, rfl, h⟩
    exact h

theorem bind_eq_error {x : Checked α} {f : α → Checked β} {e : Error} :
    (x >>= f) = .error e ↔ x = .error e ∨ ∃ a, x = .ok a ∧ f a = .error e := by
  constructor
  · intro h
    cases x with
    | error e' =>
      cases h
      exact .inl rfl
    | ok a => exact .inr ⟨a, rfl, h⟩
  · rintro (rfl | ⟨a, rfl, h⟩)
    · rfl
    · exact h

/-- A function of a result has a value where the result has one. -/
theorem exists_map_eq_ok {x : Checked α} {f : α → β} :
    (∃ b, (do return f (← x)) = .ok b) ↔ ∃ a, x = .ok a := by
  constructor
  · rintro ⟨_, h⟩
    obtain ⟨a, isResult, -⟩ := bind_eq_ok.1 h
    exact ⟨a, isResult⟩
  · rintro ⟨a, rfl⟩
    exact ⟨f a, rfl⟩

/-- Of two operands and what is done with them, one fails. -/
theorem bind_bind_eq_error {γ : Type} {x : Checked α} {y : Checked β} {f : α → β → Checked γ} {e : Error}
    (h : (do f (← x) (← y)) = .error e) :
    x = .error e ∨ y = .error e ∨ ∃ a b, f a b = .error e := by
  rcases bind_eq_error.1 h with bad | ⟨a, _, h⟩
  · exact .inl bad
  · rcases bind_eq_error.1 h with bad | ⟨b, _, bad⟩
    · exact .inr (.inl bad)
    · exact .inr (.inr ⟨a, b, bad⟩)

@[simp]
theorem ok_bind (a : α) (f : α → Checked β) : (Except.ok a >>= f) = f a := rfl

@[simp]
theorem error_bind (e : Error) (f : α → Checked β) : (Except.error e >>= f) = .error e := rfl

theorem exists_of_isOk {x : Checked α} (h : x.isOk = true) : ∃ a, x = .ok a := by
  cases x with
  | error e => cases h
  | ok a => exact ⟨a, rfl⟩

theorem pure_eq_ok {a b : α} : (pure a : Checked α) = .ok b ↔ a = b :=
  ⟨Except.ok.inj, congrArg _⟩

theorem mapM_eq_ok {f : α → Checked β} {l : List α} {bs : List β} :
    l.mapM f = .ok bs ↔ l.map f = bs.map .ok := by
  induction l generalizing bs with
  | nil => cases bs <;> simp [pure_eq_ok]
  | cons a l ih =>
    rw [List.mapM_cons, bind_eq_ok, List.map_cons]
    constructor
    · rintro ⟨b, hb, h⟩
      obtain ⟨rest, hrest, eq⟩ := bind_eq_ok.1 h
      cases pure_eq_ok.1 eq
      rw [hb, ih.1 hrest, List.map_cons]
    · intro h
      cases bs with
      | nil => exact nomatch h
      | cons b rest =>
        rw [List.map_cons, List.cons.injEq] at h
        exact ⟨b, h.1, bind_eq_ok.2 ⟨rest, ih.2 h.2, rfl⟩⟩

theorem mapM_of_forall {f : α → Checked β} {l : List α} (h : ∀ a ∈ l, ∃ b, f a = .ok b) :
    ∃ bs, l.mapM f = .ok bs := by
  induction l with
  | nil => exact ⟨[], rfl⟩
  | cons a l ih =>
    obtain ⟨b, isFirst⟩ := h a List.mem_cons_self
    obtain ⟨bs, areRest⟩ := ih fun a mem => h a (List.mem_cons_of_mem _ mem)
    refine ⟨b :: bs, ?_⟩
    rw [List.mapM_cons, isFirst, areRest]
    rfl

theorem map_eq_map_ok {f : α → Checked β} {l : List α} {bs : List β} :
    l.map f = bs.map .ok ↔ List.Forall₂ (fun a b => f a = .ok b) l bs := by
  rw [← List.forall₂_eq_eq_eq, List.forall₂_map_left_iff, List.forall₂_map_right_iff]

theorem forall₂_of_mapM {f : α → Checked β} {l : List α} {bs : List β} (h : l.mapM f = .ok bs) :
    List.Forall₂ (fun a b => f a = .ok b) l bs :=
  map_eq_map_ok.1 (mapM_eq_ok.1 h)

theorem length_of_mapM {f : α → Checked β} {l : List α} {bs : List β} (h : l.mapM f = .ok bs) :
    l.length = bs.length :=
  (forall₂_of_mapM h).length_eq

theorem of_mem_mapM {f : α → Checked β} {l : List α} {bs : List β} (h : l.mapM f = .ok bs) {b : β}
    (mem : b ∈ bs) : ∃ a ∈ l, f a = .ok b := by
  have isResult := List.mem_map_of_mem (f := (.ok : β → Checked β)) mem
  rw [← mapM_eq_ok.1 h] at isResult
  exact List.mem_map.1 isResult

theorem length_of_zip_mapM {γ : Type} {f : α × γ → Checked β} {l : List α} {cs : List γ} {bs : List β}
    (h : (l.zip cs).mapM f = .ok bs) (arity : cs.length = l.length) : l.length = bs.length := by
  have zipped := length_of_mapM h
  rw [List.length_zip, arity, Nat.min_self] at zipped
  exact zipped

/-- Results over pairs, set beside the first parts of those pairs. -/
theorem of_mem_zip_mapM {γ : Type} {f : α × γ → Checked β} {l : List α} {cs : List γ} {bs : List β}
    (h : (l.zip cs).mapM f = .ok bs) : ∀ e ∈ l.zip bs, ∃ c, f (e.1, c) = .ok e.2 := by
  induction l generalizing cs bs with
  | nil => exact nofun
  | cons a l ih =>
    rw [mapM_eq_ok] at h
    cases cs with
    | nil =>
      cases bs with
      | nil => exact nofun
      | cons b bs => exact nomatch h
    | cons c cs =>
      cases bs with
      | nil => exact nofun
      | cons b bs =>
        rw [List.zip_cons_cons, List.map_cons, List.map_cons, List.cons.injEq] at h
        intro e mem
        rcases List.mem_cons.1 mem with rfl | mem
        · exact ⟨c, h.1⟩
        · exact ih (mapM_eq_ok.2 h.2) e mem

/-- The two parts of the pairs that results are over, related by way of these results. -/
theorem forall₂_of_zip_mapM {γ : Type} {f : α × γ → Checked β} {R : α → γ → Prop} {l : List α}
    {cs : List γ} {bs : List β} (h : (l.zip cs).mapM f = .ok bs) (same : cs.length = l.length)
    (each : ∀ a c b, (a, b) ∈ l.zip bs → f (a, c) = .ok b → R a c) : List.Forall₂ R l cs := by
  induction l generalizing cs bs with
  | nil =>
    rw [List.eq_nil_of_length_eq_zero same]
    exact .nil
  | cons a l ih =>
    cases cs with
    | nil => cases same
    | cons c cs =>
      rw [List.zip_cons_cons, List.mapM_cons] at h
      obtain ⟨b, isFirst, h⟩ := bind_eq_ok.1 h
      obtain ⟨rest, areRest, eq⟩ := bind_eq_ok.1 h
      cases eq
      refine .cons (each a c b List.mem_cons_self isFirst) (ih areRest (Nat.succ.inj same) ?_)
      exact fun a c b mem => each a c b (List.mem_cons_of_mem _ mem)

theorem mapM_eq_error {f : α → Checked β} {l : List α} {e : Error} (h : l.mapM f = .error e) :
    ∃ a ∈ l, f a = .error e := by
  induction l with
  | nil => exact nomatch h
  | cons a l ih =>
    rw [List.mapM_cons] at h
    cases value : f a with
    | error e' =>
      rw [value] at h
      exact ⟨a, List.mem_cons_self, by rw [value, ← Except.error.inj h]⟩
    | ok b =>
      cases rest : l.mapM f with
      | error e' =>
        rw [value, rest] at h
        cases h
        obtain ⟨a, mem, bad⟩ := ih rest
        exact ⟨a, List.mem_cons_of_mem _ mem, bad⟩
      | ok bs =>
        rw [value, rest] at h
        exact nomatch h

theorem forM_eq_ok {f : α → Checked Unit} {l : List α} (h : l.forM f = .ok ()) :
    ∀ a ∈ l, f a = .ok () := by
  induction l with
  | nil => exact nofun
  | cons a l ih =>
    obtain ⟨⟨⟩, first, rest⟩ := bind_eq_ok.1 h
    intro b mem
    rcases List.mem_cons.1 mem with rfl | mem
    · exact first
    · exact ih rest b mem

theorem forM_of_forall {f : α → Checked Unit} {l : List α} (h : ∀ a ∈ l, f a = .ok ()) :
    l.forM f = .ok () := by
  induction l with
  | nil => rfl
  | cons a l ih =>
    rw [List.forM, h a List.mem_cons_self]
    exact ih fun a mem => h a (List.mem_cons_of_mem _ mem)

/-- The first element that fails decides. -/
theorem forM_of_first_error {f : α → Checked Unit} {before after : List α} {a : α} {e : Error}
    (passed : ∀ b ∈ before, f b = .ok ()) (bad : f a = .error e) :
    (before ++ a :: after).forM f = .error e := by
  induction before with
  | nil => rw [List.nil_append, List.forM, bad, error_bind]
  | cons b before ih =>
    rw [List.cons_append, List.forM, passed b List.mem_cons_self, ok_bind]
    exact ih fun b mem => passed b (List.mem_cons_of_mem _ mem)

theorem forM_eq_error {f : α → Checked Unit} {l : List α} {e : Error} (h : l.forM f = .error e) :
    ∃ a ∈ l, f a = .error e := by
  induction l with
  | nil => cases h
  | cons a l ih =>
    rcases bind_eq_error.1 h with bad | ⟨_, _, bad⟩
    · exact ⟨a, List.mem_cons_self, bad⟩
    · obtain ⟨b, mem, bad⟩ := ih bad
      exact ⟨b, List.mem_cons_of_mem _ mem, bad⟩

theorem anyM_eq_error {p : α → Checked Bool} {l : List α} {e : Error} (h : l.anyM p = .error e) :
    ∃ a ∈ l, p a = .error e := by
  induction l with
  | nil => cases h
  | cons a l ih =>
    rcases bind_eq_error.1 h with bad | ⟨b, _, rest⟩
    · exact ⟨a, List.mem_cons_self, bad⟩
    · cases b with
      | true => cases rest
      | false =>
        obtain ⟨b, mem, bad⟩ := ih rest
        exact ⟨b, List.mem_cons_of_mem _ mem, bad⟩

theorem anyM_of_forall {p : α → Checked Bool} {l : List α} (h : ∀ a ∈ l, ∃ b, p a = .ok b) :
    ∃ b, l.anyM p = .ok b := by
  induction l with
  | nil => exact ⟨false, rfl⟩
  | cons a l ih =>
    obtain ⟨b, isFirst⟩ := h a List.mem_cons_self
    rw [List.anyM, isFirst]
    cases b with
    | true => exact ⟨true, rfl⟩
    | false => exact ih fun a mem => h a (List.mem_cons_of_mem _ mem)

theorem anyM_eq_true {p : α → Checked Bool} {l : List α} (h : l.anyM p = .ok true) :
    ∃ a ∈ l, p a = .ok true := by
  induction l with
  | nil => exact nomatch h
  | cons a l ih =>
    obtain ⟨b, hb, h⟩ := bind_eq_ok.1 h
    cases b with
    | true => exact ⟨a, List.mem_cons_self, hb⟩
    | false =>
      obtain ⟨a, mem, ha⟩ := ih h
      exact ⟨a, List.mem_cons_of_mem _ mem, ha⟩

theorem anyM_eq_false {p : α → Checked Bool} {l : List α} (h : l.anyM p = .ok false) :
    ∀ a ∈ l, p a = .ok false := by
  induction l with
  | nil => exact nofun
  | cons a l ih =>
    obtain ⟨b, hb, h⟩ := bind_eq_ok.1 h
    cases b with
    | true => exact nomatch h
    | false =>
      intro c mem
      rcases List.mem_cons.1 mem with rfl | mem
      · exact hb
      · exact ih h c mem

@[simp]
theorem toOption_ok (a : α) : (Except.ok a : Checked α).toOption = some a := rfl

@[simp]
theorem toOption_error (e : Error) : (Except.error e : Checked α).toOption = none := rfl

@[simp]
theorem toOption_pure (a : α) : (pure a : Checked α).toOption = some a := rfl

@[simp]
theorem toOption_bind (x : Checked α) (f : α → Checked β) :
    (x >>= f).toOption = x.toOption.bind fun a => (f a).toOption := by
  cases x <;> rfl

theorem toOption_eq_some {x : Checked α} {a : α} : x.toOption = some a ↔ x = .ok a := by
  cases x with
  | error e => exact ⟨nofun, nofun⟩
  | ok b => exact ⟨fun h => congrArg _ (Option.some.inj h), fun h => congrArg _ (Except.ok.inj h)⟩

theorem map_toOption_map_ok (l : List α) :
    (l.map (.ok : α → Checked α)).map Except.toOption = l.map some := by
  rw [List.map_map]
  rfl

theorem eq_map_ok {l : List (Checked α)} {as : List α} (h : l.map Except.toOption = as.map some) :
    l = as.map .ok := by
  induction l generalizing as with
  | nil =>
    cases as with
    | nil => rfl
    | cons a as => exact nomatch h
  | cons x l ih =>
    cases as with
    | nil => exact nomatch h
    | cons a as =>
      rw [List.map_cons, List.map_cons, List.cons.injEq] at h
      rw [List.map_cons, toOption_eq_some.1 h.1, ih h.2]

end Checked

end RelEngine
