import Mathlib.Data.List.Basic
import RelEngine.Relation

/-!
How names are read when their parts have no dots.
-/
namespace RelEngine.FieldName

/-- A name with something in it and without a dot. -/
def Plain (name : String) : Prop := name ≠ "" ∧ '.' ∉ name.toList

instance (name : String) : Decidable (Plain name) := inferInstanceAs (Decidable (_ ∧ _))

theorem takeWhile_no_dot {l : List Char} (h : '.' ∉ l) (rest : List Char) :
    (l ++ rest).takeWhile (· != '.') = l ++ rest.takeWhile (· != '.') :=
  List.takeWhile_append_of_pos fun c mem => by
    rw [bne_iff_ne]
    exact fun eq => h (eq ▸ mem)

theorem dropWhile_no_dot {l : List Char} (h : '.' ∉ l) (rest : List Char) :
    (l ++ rest).dropWhile (· != '.') = rest.dropWhile (· != '.') :=
  List.dropWhile_append_of_pos fun c mem => by
    rw [bne_iff_ne]
    exact fun eq => h (eq ▸ mem)

/-- A name without a dot is no qualified one. -/
theorem parse_of_no_dot {name : String} (h : '.' ∉ name.toList) : parse name = ⟨none, name⟩ := by
  have dropped := dropWhile_no_dot h []
  rw [List.append_nil] at dropped
  simp only [parse, dropped, List.dropWhile_nil, List.drop_nil, List.isEmpty_nil, Bool.or_true,
    if_true]

theorem parse_qualified {qualifier field : String} (hq : Plain qualifier) (hf : field ≠ "") :
    parse (qualifier ++ "." ++ field) = ⟨some qualifier, field⟩ := by
  have chars : (qualifier ++ "." ++ field).toList = qualifier.toList ++ '.' :: field.toList := by
    simp
  have notEmpty : ∀ {s : String}, s ≠ "" → s.toList.isEmpty = false := fun {s} ne => by
    rw [List.isEmpty_eq_false_iff]
    exact fun eq => ne (String.toList_eq_nil_iff.1 eq)
  have stop : ('.' != '.') = false := by decide
  simp only [parse, chars, takeWhile_no_dot hq.2, dropWhile_no_dot hq.2, List.takeWhile_cons, stop,
    List.dropWhile_cons, Bool.false_eq_true, if_false, List.append_nil, List.drop_one, List.tail_cons,
    notEmpty hq.1, notEmpty hf, Bool.or_false, String.ofList_toList]

/-- A qualified name has a dot in it. -/
theorem dot_mem_of_parse {name qualifier field : String}
    (h : parse name = ⟨some qualifier, field⟩) : '.' ∈ name.toList := by
  by_contra no
  rw [parse_of_no_dot no] at h
  exact nomatch h

/-- A qualified name is put together from its parts. -/
theorem eq_of_parse {name qualifier field : String}
    (h : parse name = ⟨some qualifier, field⟩) : name = qualifier ++ "." ++ field := by
  unfold parse at h
  simp only at h
  split at h
  · cases h
  · next parts =>
    cases h
    rw [Bool.or_eq_true, not_or] at parts
    have split := List.takeWhile_append_dropWhile (p := (· != '.')) (l := name.toList)
    cases rest : name.toList.dropWhile (· != '.') with
    | nil =>
      rw [rest] at parts
      exact absurd rfl parts.2
    | cons c tail =>
      have isDot : c = '.' := by
        have first := List.head?_dropWhile_not (· != '.') name.toList
        rw [rest] at first
        simpa using first
      rw [rest, isDot] at split
      apply String.toList_injective
      refine split.symm.trans ?_
      simp

/-- A bare name stands for the columns that are called so. -/
theorem isNamed_of_parse_bare {name rest : String} (h : parse name = ⟨none, rest⟩)
    (column : FieldName) : column.isNamed name = (column.field == name) := by
  unfold isNamed
  cases hq : column.qualifier with
  | none => simp
  | some q =>
    have differ : (parse name == column) = false := by
      rw [beq_eq_false_iff_ne, h]
      intro eq
      rw [← eq] at hq
      exact nomatch hq
    rw [differ, Bool.and_false, Bool.or_false]

/-- A qualified name stands for the one column that it spells out. -/
theorem isNamed_of_parse_qualified {name q f : String} (h : parse name = ⟨some q, f⟩)
    {column : FieldName} (plain : Plain column.field) :
    column.isNamed name = (column == ⟨some q, f⟩) := by
  have noField : (column.field == name) = false := by
    rw [beq_eq_false_iff_ne]
    exact fun eq => plain.2 (eq ▸ dot_mem_of_parse h)
  rw [isNamed, noField, Bool.false_or, h]
  cases hq : column.qualifier with
  | none =>
    rw [Option.isSome_none, Bool.false_and, Eq.comm, beq_eq_false_iff_ne]
    intro eq
    rw [eq] at hq
    exact nomatch hq
  | some q' => rw [Option.isSome_some, Bool.true_and, beq_eq_beq, eq_comm]

theorem isNamed_computed (name field : String) :
    (FieldName.mk none name).isNamed field = (name == field) := by
  simp [isNamed]

end RelEngine.FieldName
