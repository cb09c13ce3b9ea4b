/-!
Finite maps as lists of entries in strictly ascending key order. The order is part of the type, so two
maps with the same entries are the same map and a listing needs no sorting.
-/
namespace RelEngine

structure SortedMap (κ : Type) (α : Type) [Ord κ] where
  entries : List (κ × α)
  ascending : entries.Pairwise fun a b => compare a.1 b.1 = .lt

namespace SortedMap

variable {κ α : Type} [Ord κ]

def empty : SortedMap κ α := ⟨[], .nil⟩

instance : Inhabited (SortedMap κ α) := ⟨empty⟩

def keys (m : SortedMap κ α) : List κ := m.entries.map (·.1)

def size (m : SortedMap κ α) : Nat := m.entries.length

def find? (m : SortedMap κ α) (k : κ) : Option α :=
  m.entries.findSome? fun e => if compare k e.1 = .eq then some e.2 else none

def contains (m : SortedMap κ α) (k : κ) : Bool := (m.find? k).isSome

def first? (m : SortedMap κ α) : Option κ := m.entries.head?.map (·.1)

/-- The least key above `k`, which itself need not be present. -/
def after? (m : SortedMap κ α) (k : κ) : Option κ :=
  (m.entries.find? fun e => compare k e.1 = .lt).map (·.1)

/-- Puts an entry in its place; an entry with an equal key is replaced. -/
def insertEntry (k : κ) (x : α) : List (κ × α) → List (κ × α)
  | [] => [(k, x)]
  | e :: es =>
    match compare k e.1 with
    | .lt => (k, x) :: e :: es
    | .eq => (k, x) :: es
    | .gt => e :: insertEntry k x es

theorem mem_insertEntry {k : κ} {x : α} {a : κ × α} {es : List (κ × α)}
    (h : a ∈ insertEntry k x es) : a = (k, x) ∨ a ∈ es := by
  induction es with
  | nil => exact .inl (by simpa [insertEntry] using h)
  | cons e es ih =>
    unfold insertEntry at h
    split at h
    · simpa using h
    · rcases List.mem_cons.1 h with h | h
      · exact .inl h
      · exact .inr (List.mem_cons_of_mem _ h)
    · rcases List.mem_cons.1 h with h | h
      · exact .inr (h ▸ List.mem_cons_self)
      · exact (ih h).imp_right (List.mem_cons_of_mem _)

section Lawful

variable [Std.TransOrd κ] [Std.LawfulEqOrd κ]

theorem pairwise_insertEntry (k : κ) (x : α) {es : List (κ × α)}
    (h : es.Pairwise fun a b => compare a.1 b.1 = .lt) :
    (insertEntry k x es).Pairwise fun a b => compare a.1 b.1 = .lt := by
  induction es with
  | nil => simp [insertEntry]
  | cons e es ih =>
    obtain ⟨head, tail⟩ := List.pairwise_cons.1 h
    unfold insertEntry
    split
    · next lt =>
      refine List.pairwise_cons.2 ⟨fun a ha => ?_, h⟩
      rcases List.mem_cons.1 ha with rfl | ha
      · exact lt
      · exact Std.TransCmp.lt_trans lt (head a ha)
    · next eq =>
      refine List.pairwise_cons.2 ⟨fun a ha => ?_, tail⟩
      have same : k = e.1 := Std.LawfulEqCmp.eq_of_compare eq
      exact same ▸ head a ha
    · next gt =>
      refine List.pairwise_cons.2 ⟨fun a ha => ?_, ih tail⟩
      rcases mem_insertEntry ha with rfl | ha
      · exact Std.OrientedCmp.gt_iff_lt.1 gt
      · exact head a ha

def insert (m : SortedMap κ α) (k : κ) (x : α) : SortedMap κ α :=
  ⟨insertEntry k x m.entries, pairwise_insertEntry k x m.ascending⟩

end Lawful

def erase (m : SortedMap κ α) (k : κ) : SortedMap κ α :=
  ⟨m.entries.filter fun e => compare k e.1 ≠ .eq, m.ascending.filter _⟩

def modify (m : SortedMap κ α) (k : κ) (f : α → α) : SortedMap κ α :=
  ⟨m.entries.map fun e => (e.1, if compare k e.1 = .eq then f e.2 else e.2),
    List.pairwise_map.2 m.ascending⟩

theorem mem_insert [Std.TransOrd κ] [Std.LawfulEqOrd κ] {m : SortedMap κ α} {k : κ} {x : α}
    {a : κ × α} (h : a ∈ (m.insert k x).entries) : a = (k, x) ∨ a ∈ m.entries :=
  mem_insertEntry h

theorem mem_of_mem_erase {m : SortedMap κ α} {k : κ} {a : κ × α} (h : a ∈ (m.erase k).entries) :
    a ∈ m.entries :=
  (List.mem_filter.1 h).1

theorem keys_modify (m : SortedMap κ α) (k : κ) (f : α → α) : (m.modify k f).keys = m.keys := by
  simp [keys, modify, Function.comp_def]

end SortedMap

end RelEngine
