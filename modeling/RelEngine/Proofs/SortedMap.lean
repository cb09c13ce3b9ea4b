import Mathlib.Data.List.Sort
import RelEngine.SortedMap

/-!
Laws of sorted maps: what is found after each change, and in which order the keys come.
-/
namespace RelEngine.SortedMap

variable {κ α : Type} [Ord κ] {m : SortedMap κ α} {k : κ}

theorem keys_pairwise (m : SortedMap κ α) : m.keys.Pairwise fun a b => compare a b = .lt :=
  List.pairwise_map.2 m.ascending

theorem first?_eq_head? (m : SortedMap κ α) : m.first? = m.keys.head? := by
  simp [first?, keys]

/-- The first key that satisfies a condition comes before all others that do. -/
theorem of_find?_entries {next : κ} {p : κ → Bool}
    (h : (m.entries.find? fun e => p e.1).map (·.1) = some next) :
    next ∈ m.keys ∧ p next = true ∧
      ∀ other ∈ m.keys, p other = true → other = next ∨ compare next other = .lt := by
  obtain ⟨e, found, rfl⟩ := Option.map_eq_some_iff.1 h
  obtain ⟨holds, before, after, split, refused⟩ := List.find?_eq_some_iff_append.1 found
  have order := m.ascending
  rw [split, List.pairwise_append, List.pairwise_cons] at order
  refine ⟨List.mem_map_of_mem (split ▸ List.mem_append_right _ List.mem_cons_self), holds, ?_⟩
  intro other isKey wanted
  obtain ⟨d, mem, rfl⟩ := List.mem_map.1 isKey
  rw [split] at mem
  rcases List.mem_append.1 mem with mem | mem
  · have notWanted := refused d mem
    rw [wanted] at notWanted
    cases notWanted
  · rcases List.mem_cons.1 mem with rfl | mem
    · exact .inl rfl
    · exact .inr (order.2.1.1 d mem)

theorem of_find?_entries_none {p : κ → Bool}
    (h : (m.entries.find? fun e => p e.1).map (·.1) = none) : ∀ other ∈ m.keys, p other = false := by
  intro other isKey
  obtain ⟨d, mem, rfl⟩ := List.mem_map.1 isKey
  have refused := List.find?_eq_none.1 (Option.map_eq_none_iff.1 h) d mem
  exact Bool.eq_false_of_not_eq_true refused

theorem find?_modify_self (f : α → α) : (m.modify k f).find? k = (m.find? k).map f := by
  simp only [find?, modify, List.findSome?_map]
  induction m.entries with
  | nil => rfl
  | cons e entries ih =>
    rw [List.findSome?_cons, List.findSome?_cons]
    by_cases here : compare k e.1 = .eq
    · simp [here]
    · simp only [Function.comp_apply, here, if_false]
      exact ih

variable [Std.LawfulEqOrd κ]

theorem keys_nodup (m : SortedMap κ α) : m.keys.Nodup := by
  refine m.keys_pairwise.imp ?_
  rintro a _ lt rfl
  simp at lt

theorem find?_of_mem {x : α} (h : (k, x) ∈ m.entries) : m.find? k = some x := by
  obtain ⟨entries, ascending⟩ := m
  simp only [find?] at h ⊢
  induction entries with
  | nil => exact nomatch h
  | cons e entries ih =>
    obtain ⟨above, ascending⟩ := List.pairwise_cons.1 ascending
    rcases List.mem_cons.1 h with rfl | mem
    · simp
    · have later : compare k e.1 ≠ .eq := by
        intro eq
        rw [Std.LawfulEqCmp.eq_of_compare eq] at mem
        have lt := above _ mem
        simp at lt
      rw [List.findSome?_cons, if_neg later]
      exact ih ascending mem

theorem mem_of_find? {x : α} (h : m.find? k = some x) : (k, x) ∈ m.entries := by
  obtain ⟨e, mem, found⟩ := List.exists_of_findSome?_eq_some h
  split at found
  · next eq =>
    rw [Std.LawfulEqCmp.eq_of_compare eq, ← Option.some.inj found]
    exact mem
  · exact nomatch found

theorem mem_keys_iff : k ∈ m.keys ↔ ∃ x, m.find? k = some x := by
  constructor
  · intro mem
    obtain ⟨⟨_, x⟩, isEntry, rfl⟩ := List.mem_map.1 mem
    exact ⟨x, find?_of_mem isEntry⟩
  · rintro ⟨x, found⟩
    exact List.mem_map_of_mem (mem_of_find? found)

theorem compare_ne {a b : κ} (h : a ≠ b) : compare a b ≠ .eq := fun eq =>
  h (Std.LawfulEqCmp.eq_of_compare eq)

/-! ## Changes -/

section

variable {j : κ}

theorem find?_erase_self : (m.erase k).find? k = none := by
  rw [← Option.not_isSome_iff_eq_none]
  intro some
  obtain ⟨x, found⟩ := Option.isSome_iff_exists.1 some
  have kept := (List.mem_filter.1 (mem_of_find? found)).2
  simp at kept

theorem find?_erase_of_ne (differ : j ≠ k) : (m.erase k).find? j = m.find? j := by
  obtain ⟨entries, _⟩ := m
  simp only [find?, erase]
  induction entries with
  | nil => rfl
  | cons e entries ih =>
    by_cases gone : compare k e.1 = .eq
    · have other : compare j e.1 ≠ .eq :=
        Std.LawfulEqCmp.eq_of_compare gone ▸ compare_ne differ
      rw [List.filter_cons, if_neg (by simp [gone]), List.findSome?_cons, if_neg other]
      exact ih (List.pairwise_cons.1 ‹_›).2
    · rw [List.filter_cons, if_pos (by simp [gone]), List.findSome?_cons, List.findSome?_cons]
      rw [ih (List.pairwise_cons.1 ‹_›).2]

theorem find?_modify_of_ne (f : α → α) (differ : j ≠ k) : (m.modify k f).find? j = m.find? j := by
  simp only [find?, modify, List.findSome?_map]
  induction m.entries with
  | nil => rfl
  | cons e entries ih =>
    rw [List.findSome?_cons, List.findSome?_cons, ih]
    by_cases here : compare j e.1 = .eq
    · have other : compare k e.1 ≠ .eq :=
        Std.LawfulEqCmp.eq_of_compare here ▸ compare_ne differ.symm
      simp [here, other]
    · simp [here]

end

variable [Std.TransOrd κ]

theorem find?_insert_self (x : α) : (m.insert k x).find? k = some x := by
  simp only [find?, insert]
  induction m.entries with
  | nil => simp [insertEntry]
  | cons e entries ih =>
    unfold insertEntry
    split
    · simp
    · simp
    · next gt =>
      rw [List.findSome?_cons, if_neg fun eq => by cases gt.symm.trans eq]
      exact ih

theorem find?_insert_of_ne {j : κ} (x : α) (differ : j ≠ k) :
    (m.insert k x).find? j = m.find? j := by
  simp only [find?, insert]
  induction m.entries with
  | nil => simp [insertEntry, compare_ne differ]
  | cons e entries ih =>
    unfold insertEntry
    split
    · rw [List.findSome?_cons, if_neg (compare_ne differ)]
    · next eq =>
      have other : compare j e.1 ≠ .eq := Std.LawfulEqCmp.eq_of_compare eq ▸ compare_ne differ
      rw [List.findSome?_cons, List.findSome?_cons, if_neg (compare_ne differ), if_neg other]
    · rw [List.findSome?_cons, List.findSome?_cons, ih]

/-- The key after `k` is the next one in the order of the keys. -/
theorem after?_of_keys {before after : List κ} (h : m.keys = before ++ k :: after) :
    m.after? k = after.head? := by
  have order := m.keys_pairwise
  rw [h, List.pairwise_append, List.pairwise_cons] at order
  obtain ⟨-, ⟨above, -⟩, below⟩ := order
  have skip : (before ++ [k]).find? (fun a => compare k a = .lt) = none := by
    rw [List.find?_eq_none]
    intro a mem lt
    rcases List.mem_append.1 mem with mem | mem
    · have gt := Std.OrientedCmp.gt_of_lt (below a mem k List.mem_cons_self)
      simp [gt] at lt
    · simp [List.mem_singleton.1 mem] at lt
  have here : after.find? (fun a => compare k a = .lt) = after.head? := by
    cases after with
    | nil => rfl
    | cons a after => simp [above a List.mem_cons_self]
  have found : m.after? k = m.keys.find? fun a => compare k a = .lt := by
    rw [after?, keys, List.find?_map]
    rfl
  rw [found, h, List.append_cons, List.find?_append, skip, here]
  rfl

/-- An entry with a key above all others comes last. -/
theorem entries_insert_of_lt (x : α) (above : ∀ e ∈ m.entries, compare e.1 k = .lt) :
    (m.insert k x).entries = m.entries ++ [(k, x)] := by
  obtain ⟨entries, ascending⟩ := m
  simp only [insert] at above ⊢
  clear ascending
  induction entries with
  | nil => rfl
  | cons e entries ih =>
    have gt : compare k e.1 = .gt := Std.OrientedCmp.gt_of_lt (above e List.mem_cons_self)
    rw [insertEntry, gt]
    simp only [ih fun e mem => above e (List.mem_cons_of_mem _ mem), List.cons_append]

/-! ## Maps with the same entries -/

/-- The order of the keys leaves no choice. -/
theorem keys_eq_of_mem_iff {β : Type} {m' : SortedMap κ β} (h : ∀ k, k ∈ m.keys ↔ k ∈ m'.keys) :
    m.keys = m'.keys := by
  have antisymm : Std.Antisymm fun a b : κ => compare a b = .lt :=
    ⟨fun a b lt gt => absurd (Std.OrientedCmp.gt_of_lt gt) (by rw [lt]; decide)⟩
  have irrefl : Std.Irrefl fun a b : κ => compare a b = .lt := ⟨fun a lt => by simp at lt⟩
  exact m.keys_pairwise.eq_of_mem_iff m'.keys_pairwise h

theorem ext_find? {m' : SortedMap κ α} (h : ∀ k, m.find? k = m'.find? k) : m = m' := by
  have antisymm : Std.Antisymm fun a b : κ × α => compare a.1 b.1 = .lt :=
    ⟨fun a b lt gt => absurd (Std.OrientedCmp.gt_of_lt gt) (by rw [lt]; decide)⟩
  have irrefl : Std.Irrefl fun a b : κ × α => compare a.1 b.1 = .lt := ⟨fun a lt => by simp at lt⟩
  have entries : m.entries = m'.entries := by
    refine m.ascending.eq_of_mem_iff m'.ascending fun ⟨k, x⟩ => ?_
    constructor
    · intro mem
      exact mem_of_find? ((h k).symm.trans (find?_of_mem mem))
    · intro mem
      exact mem_of_find? ((h k).trans (find?_of_mem mem))
  cases m
  cases m'
  cases entries
  rfl

section

variable {γ : Type} {key : γ → κ} {value : γ → α} {l : List γ}

theorem find?_foldl_insert_of_ne (h : ∀ e ∈ l, k ≠ key e) :
    (l.foldl (fun m e => m.insert (key e) (value e)) m).find? k = m.find? k := by
  induction l generalizing m with
  | nil => rfl
  | cons e l ih =>
    rw [List.foldl_cons, ih fun e mem => h e (List.mem_cons_of_mem _ mem)]
    exact find?_insert_of_ne _ (h e List.mem_cons_self)

/-- Of entries with different keys each is found. -/
theorem find?_foldl_insert_of_mem (distinct : (l.map key).Nodup) {e : γ} (mem : e ∈ l) :
    (l.foldl (fun m e => m.insert (key e) (value e)) m).find? (key e) = some (value e) := by
  induction l generalizing m with
  | nil => cases mem
  | cons d l ih =>
    rw [List.map_cons, List.nodup_cons] at distinct
    rw [List.foldl_cons]
    rcases List.mem_cons.1 mem with rfl | mem
    · have later : ∀ d ∈ l, key e ≠ key d := fun d mem same =>
        distinct.1 (same ▸ List.mem_map_of_mem mem)
      rw [find?_foldl_insert_of_ne later]
      exact find?_insert_self _
    · exact ih distinct.2 mem

end

end RelEngine.SortedMap
