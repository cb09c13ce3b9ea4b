import Mathlib.Data.List.Find
import RelEngine.Proofs.Name
import RelEngine.Proofs.Schema
import RelEngine.TableView

/-!
Which column of a table a name stands for.
-/
namespace RelEngine.TableView

theorem find?_beq (l : List String) (a : String) :
    (l.find? (· == a)) = if l.contains a then some a else none := by
  induction l with
  | nil => rfl
  | cons b l ih =>
    rw [List.find?_cons, List.contains_cons]
    cases h : b == a with
    | true =>
      rw [eq_of_beq h]
      simp
    | false =>
      rw [ih, Bool.beq_comm, h, Bool.false_or]

variable {t : TableView}

theorem resolve_of_has {name : String} (h : t.has name = true) :
    ∃ field, t.resolve name = .ok field ∧ t.schema.has field = true := by
  obtain ⟨field, isLocal⟩ := Option.isSome_iff_exists.1 h
  refine ⟨field, by rw [resolve, isLocal], ?_⟩
  unfold local? at isLocal
  split at isLocal
  · split at isLocal
    · next both =>
      cases isLocal
      exact (Bool.and_eq_true_iff.1 both).2
    · cases isLocal
  · split at isLocal
    · next has =>
      cases isLocal
      exact has
    · cases isLocal

theorem resolve_of_not_has {name : String} (h : t.has name = false) :
    t.resolve name = .error (.fieldNotFound name) := by
  have noColumn : t.local? name = none := by
    rw [← Option.not_isSome_iff_eq_none, Bool.not_eq_true]
    exact h
  rw [resolve, noColumn]

/-- A table finds the column that a name stands for as a heading does. -/
theorem local?_eq_find? (plain : ∀ c ∈ t.schema.names, FieldName.Plain c) (name : String) :
    t.local? name =
      t.schema.names.find? fun c => (FieldName.mk (some t.qualifier) c).isNamed name := by
  rcases h : FieldName.parse name with ⟨_ | q, f⟩
  · simp only [local?, h, FieldName.isNamed_of_parse_bare h, find?_beq]
    rfl
  · have isName : ∀ c ∈ t.schema.names, (FieldName.mk (some t.qualifier) c).isNamed name =
        (FieldName.mk (some t.qualifier) c == ⟨some q, f⟩) := fun c mem =>
      FieldName.isNamed_of_parse_qualified h (plain c mem)
    rw [List.find?_congr isName]
    simp only [local?, h]
    by_cases same : q = t.qualifier
    · subst same
      have eq : (fun c => FieldName.mk (some t.qualifier) c == ⟨some t.qualifier, f⟩) =
          (· == f) := by
        funext c
        rw [Bool.eq_iff_iff]
        simp
      simp only [eq, find?_beq, beq_self_eq_true, Bool.true_and]
      rfl
    · have none : t.schema.names.find?
          (fun c => FieldName.mk (some t.qualifier) c == ⟨some q, f⟩) = none := by
        rw [List.find?_eq_none]
        intro c _ eq
        exact same (Option.some.inj (FieldName.mk.inj (eq_of_beq eq)).1).symm
      simp only [none, beq_eq_false_iff_ne.2 same, Bool.false_and, Bool.false_eq_true, if_false]

theorem has_eq_any (plain : ∀ c ∈ t.schema.names, FieldName.Plain c) (name : String) :
    t.has name =
      t.schema.names.any fun c => (FieldName.mk (some t.qualifier) c).isNamed name := by
  rw [has, local?_eq_find? plain, List.isSome_find?]

end RelEngine.TableView
