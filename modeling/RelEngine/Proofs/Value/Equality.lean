import RelEngine.Proofs.Value.Order

/-!
Equality of values by comparison: numbers of any kind by their value, strings by their characters. NULL
and NaN equal nothing. Among the values that equal something it is an equivalence.
-/
namespace RelEngine

theorem Binary.order?_eq {f : Format} {x y : Binary f} :
    x.order? y = some .eq ↔ x.isNaN = false ∧ y.isNaN = false ∧ x.rank = y.rank := by
  rw [Binary.order?]
  split
  · next nan =>
    refine ⟨nofun, fun ⟨hx, hy, _⟩ => ?_⟩
    rw [hx, hy] at nan
    exact nomatch nan
  · next notNan =>
    rw [Bool.or_eq_true, not_or, Bool.not_eq_true, Bool.not_eq_true] at notNan
    rw [Option.some.injEq, Std.LawfulEqOrd.compare_eq_iff_eq]
    exact ⟨fun eq => ⟨notNan.1, notNan.2, eq⟩, fun h => h.2.2⟩

/-- Scalars are ordered as equal if they are the same string or numbers of the same rank. -/
theorem Scalar.order?_eq {a b : Scalar} :
    a.order? b = .ok (some .eq) ↔
      (∃ s, a = .text s ∧ b = .text s) ∨
        ∃ x y, a.double? = some x ∧ b.double? = some y ∧ x.order? y = some .eq := by
  by_cases texts : (∃ s, a = .text s) ∧ ∃ t, b = .text t
  · obtain ⟨⟨s, rfl⟩, t, rfl⟩ := texts
    rw [Scalar.order?, Except.ok.injEq, Option.some.injEq, Std.LawfulEqOrd.compare_eq_iff_eq]
    constructor
    · rintro rfl
      exact .inl ⟨s, rfl, rfl⟩
    · rintro (⟨u, hs, ht⟩ | ⟨x, y, hx, _⟩)
      · cases hs
        cases ht
        rfl
      · cases hx
  · rw [Scalar.order?]
    · constructor
      · intro h
        split at h
        · next x y hx hy => exact .inr ⟨x, y, hx, hy, Except.ok.inj h⟩
        · cases h
      · rintro (⟨s, rfl, rfl⟩ | ⟨x, y, hx, hy, eq⟩)
        · exact absurd ⟨⟨s, rfl⟩, s, rfl⟩ texts
        · simp only [hx, hy, eq]
    · exact fun s t ha hb => texts ⟨⟨s, ha⟩, t, hb⟩

namespace Value

/-- The comparison of the two values says that they are equal. -/
def Equals (v w : Value) : Prop := relate .eq v w = .ok (ofBool true)

instance (v w : Value) : Decidable (Equals v w) := inferInstanceAs (Decidable (_ = _))

theorem equals_iff {v w : Value} :
    Equals v w ↔ ∃ a b, v = some a ∧ w = some b ∧ a.order? b = .ok (some .eq) := by
  cases v with
  | none => exact ⟨nofun, fun ⟨_, _, h, _⟩ => nomatch h⟩
  | some a =>
    cases w with
    | none => exact ⟨nofun, fun ⟨_, _, _, h, _⟩ => nomatch h⟩
    | some b =>
      rw [Equals, relate]
      constructor
      · intro h
        obtain ⟨o, order, eq⟩ := Checked.bind_eq_ok.1 h
        refine ⟨a, b, rfl, rfl, ?_⟩
        rw [order, ← of_decide_eq_true (Scalar.bool.inj (Option.some.inj (Except.ok.inj eq)))]
      · rintro ⟨_, _, ha, hb, order⟩
        cases ha
        cases hb
        rw [order]
        rfl

theorem Equals.ne_none {v w : Value} (h : Equals v w) : v ≠ none ∧ w ≠ none := by
  obtain ⟨a, b, rfl, rfl, _⟩ := equals_iff.1 h
  exact ⟨nofun, nofun⟩

theorem Equals.symm {v w : Value} (h : Equals v w) : Equals w v := by
  obtain ⟨a, b, rfl, rfl, order⟩ := equals_iff.1 h
  refine equals_iff.2 ⟨b, a, rfl, rfl, ?_⟩
  rw [← Checked.toOption_eq_some, Scalar.order?_swap, order]
  rfl

theorem Equals.trans {u v w : Value} (h : Equals u v) (h' : Equals v w) : Equals u w := by
  obtain ⟨a, b, rfl, rfl, order⟩ := equals_iff.1 h
  obtain ⟨b, c, eq, rfl, order'⟩ := equals_iff.1 h'
  cases eq
  refine equals_iff.2 ⟨a, c, rfl, rfl, ?_⟩
  rw [Scalar.order?_eq] at order order' ⊢
  rcases order with ⟨s, rfl, rfl⟩ | ⟨x, y, hx, hy, xy⟩
  · rcases order' with ⟨t, eq, rfl⟩ | ⟨_, _, hx, _⟩
    · cases eq
      exact .inl ⟨s, rfl, rfl⟩
    · exact nomatch hx
  · rcases order' with ⟨t, rfl, rfl⟩ | ⟨y', z, hy', hz, yz⟩
    · exact nomatch hy
    · rw [hy] at hy'
      cases hy'
      rw [Binary.order?_eq] at xy yz
      exact .inr ⟨x, z, hx, hz, Binary.order?_eq.2 ⟨xy.1, yz.2.1, xy.2.2.trans yz.2.2⟩⟩

/-- Values that are identical are both NULL or equal. -/
theorem equals_of_identical {v w : Value} (h : identical v w = true) (notNull : v ≠ none) :
    Equals v w := by
  cases v with
  | none => exact absurd rfl notNull
  | some a =>
    cases w with
    | none => cases a <;> exact nomatch h
    | some b =>
      refine equals_iff.2 ⟨a, b, rfl, rfl, Scalar.order?_eq.2 ?_⟩
      by_cases texts : (∃ s, a = .text s) ∧ ∃ t, b = .text t
      · obtain ⟨⟨s, rfl⟩, t, rfl⟩ := texts
        rw [identical, beq_iff_eq] at h
        exact .inl ⟨s, rfl, h ▸ rfl⟩
      · rw [identical] at h
        · split at h
          · next x y hx hy => exact .inr ⟨x, y, hx, hy, of_decide_eq_true h⟩
          · exact nomatch h
        · exact fun s t ha hb => texts ⟨⟨s, ha⟩, t, hb⟩

/-- Equal values are identical. Only NULL is identical to something that it does not equal. -/
theorem Equals.identical {v w : Value} (h : Equals v w) : identical v w = true := by
  obtain ⟨a, b, rfl, rfl, order⟩ := equals_iff.1 h
  rcases Scalar.order?_eq.1 order with ⟨s, rfl, rfl⟩ | ⟨x, y, hx, hy, eq⟩
  · exact beq_self_eq_true s
  · rw [Value.identical]
    · simp only [hx, hy]
      exact decide_eq_true eq
    · rintro s t rfl rfl
      exact nomatch hx

theorem identical_none {w : Value} (h : identical none w = true) : w = none := by
  cases w with
  | none => rfl
  | some b => exact nomatch h

/-- What a comparison for equality gives is true only between equal values. -/
theorem isTrue_relate {v w result : Value} (h : relate .eq v w = .ok result) :
    result.isTrue = true ↔ Equals v w := by
  rw [Equals, h, Except.ok.injEq]
  cases v with
  | none =>
    cases h
    exact ⟨nofun, nofun⟩
  | some a =>
    cases w with
    | none =>
      cases h
      exact ⟨nofun, nofun⟩
    | some b =>
      obtain ⟨o, _, eq⟩ := Checked.bind_eq_ok.1 h
      cases eq
      cases Comparison.eq.holds o with
      | false => exact ⟨nofun, nofun⟩
      | true => exact ⟨fun _ => rfl, fun _ => rfl⟩

end Value

end RelEngine
