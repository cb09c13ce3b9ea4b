import Mathlib.Data.List.Nodup
import RelEngine.Schema

/-!
The places of columns: there is one for each column, in the columns' order, and no two overlap.
-/
namespace RelEngine

namespace Column

/-- The field has the size of its type, unless it is a string field. -/
def Sized (c : Column) : Prop := ∀ n, c.type.fixedSize? = some n → c.size = n

instance (c : Column) : Decidable c.Sized :=
  inferInstanceAs (Decidable (∀ n ∈ c.type.fixedSize?, c.size = n))

theorem totalSize_append (cs ds : List Column) :
    totalSize (cs ++ ds) = totalSize cs + totalSize ds := by
  induction cs with
  | nil => simp [totalSize]
  | cons c cs ih => rw [List.cons_append, totalSize, totalSize, ih, Nat.add_assoc]

end Column

namespace Schema

variable {s : Schema} {name : String}

theorem columns_slots (s : Schema) : s.slots.map (·.column) = s.columns := by
  refine List.ext_getElem? fun i => ?_
  rw [slots, List.getElem?_map, List.getElem?_mapIdx]
  cases s.columns[i]? <;> rfl

theorem names_slots (s : Schema) : s.slots.map (·.column.name) = s.names := by
  rw [names, ← s.columns_slots, List.map_map]
  rfl

theorem has_iff : s.has name = true ↔ name ∈ s.names := by
  rw [has, List.contains_iff_mem]

theorem slot?_isSome : (s.slot? name).isSome = s.has name := by
  rw [slot?, List.isSome_find?, has, ← s.names_slots, List.contains_eq_any_beq, List.any_map]
  congr
  funext slot
  exact Bool.beq_comm

theorem name_of_slot? {slot : Slot} (h : s.slot? name = some slot) : slot.column.name = name := by
  have found := List.find?_some h
  exact eq_of_beq found

theorem slot_eq_ok {slot : Slot} : s.slot name = .ok slot ↔ s.slot? name = some slot := by
  rw [Schema.slot]
  cases s.slot? name with
  | none => exact ⟨nofun, nofun⟩
  | some other =>
    exact ⟨fun h => congrArg some (Except.ok.inj h), fun h => congrArg Except.ok (Option.some.inj h)⟩

theorem slot_of_has (h : s.has name = true) : ∃ slot, s.slot name = .ok slot := by
  rw [← slot?_isSome] at h
  obtain ⟨slot, found⟩ := Option.isSome_iff_exists.1 h
  exact ⟨slot, slot_eq_ok.2 found⟩

theorem mem_of_slot? {slot : Slot} (h : s.slot? name = some slot) :
    s.columns[slot.index]? = some slot.column ∧
      slot.offset = s.bitmapSize + s.fieldBytes slot.index := by
  have mem := List.mem_of_find?_eq_some h
  rw [slots, List.mem_mapIdx] at mem
  obtain ⟨i, inside, rfl⟩ := mem
  exact ⟨List.getElem?_eq_getElem inside, rfl⟩

theorem column_mem {slot : Slot} (h : s.slot? name = some slot) : slot.column ∈ s.columns :=
  List.mem_of_getElem? (mem_of_slot? h).1

theorem slot?_of_mem {c : Column} (mem : c ∈ s.columns) :
    ∃ slot, s.slot? c.name = some slot ∧ slot.column = c := by
  have has : (s.slot? c.name).isSome = true := by
    rw [slot?_isSome, has_iff]
    exact List.mem_map_of_mem mem
  obtain ⟨slot, found⟩ := Option.isSome_iff_exists.1 has
  exact ⟨slot, found, List.inj_on_of_nodup_map s.nodup (column_mem found) mem (name_of_slot? found)⟩

/-- Slots of different names are different ones. -/
theorem index_ne {other : String} {slot slot' : Slot} (h : s.slot? name = some slot)
    (h' : s.slot? other = some slot') (differ : name ≠ other) : slot.index ≠ slot'.index := by
  intro same
  have column := (mem_of_slot? h).1
  rw [same, (mem_of_slot? h').1, Option.some.injEq] at column
  rw [← name_of_slot? h, ← name_of_slot? h', column] at differ
  exact differ rfl

theorem fieldBytes_succ {i : Nat} {c : Column} (h : s.columns[i]? = some c) :
    s.fieldBytes (i + 1) = s.fieldBytes i + c.size := by
  rw [fieldBytes, fieldBytes, List.take_add_one, h, Column.totalSize_append]
  rfl

theorem fieldBytes_mono {i j : Nat} (h : i ≤ j) : s.fieldBytes i ≤ s.fieldBytes j := by
  have split := List.take_append_drop i (s.columns.take j)
  rw [List.take_take, Nat.min_eq_left h] at split
  rw [fieldBytes, fieldBytes, ← split, Column.totalSize_append]
  exact Nat.le_add_right _ _

/-- Fields follow one after the other. -/
theorem fields_disjoint {other : String} {slot slot' : Slot} (h : s.slot? name = some slot)
    (h' : s.slot? other = some slot') (differ : name ≠ other) :
    slot.offset + slot.column.size ≤ slot'.offset ∨
      slot'.offset + slot'.column.size ≤ slot.offset := by
  obtain ⟨column, offset⟩ := mem_of_slot? h
  obtain ⟨column', offset'⟩ := mem_of_slot? h'
  have after := fieldBytes_succ column
  have after' := fieldBytes_succ column'
  rcases Nat.lt_or_gt_of_ne (index_ne h h' differ) with lt | lt
  · have mono : s.fieldBytes (slot.index + 1) ≤ s.fieldBytes slot'.index := fieldBytes_mono lt
    omega
  · have mono : s.fieldBytes (slot'.index + 1) ≤ s.fieldBytes slot.index := fieldBytes_mono lt
    omega

theorem field_inside {slot : Slot} (h : s.slot? name = some slot) :
    slot.offset + slot.column.size ≤ s.rowSize ∧ s.bitmapSize ≤ slot.offset ∧
      slot.index < s.size := by
  obtain ⟨column, offset⟩ := mem_of_slot? h
  have inside : slot.index < s.size := (List.getElem?_eq_some_iff.1 column).1
  have after := fieldBytes_succ column
  have mono : s.fieldBytes (slot.index + 1) ≤ s.fieldBytes s.size := fieldBytes_mono inside
  rw [rowSize]
  omega

theorem index_inside {slot : Slot} (h : s.slot? name = some slot) :
    slot.index / 8 < s.bitmapSize := by
  have inside := (field_inside h).2.2
  rw [bitmapSize]
  omega

/-! ## Adding columns -/

variable {c : Column}

theorem add?_of_mem (taken : c.name ∈ s.names) : s.add? c = none := dif_pos taken

theorem add_of_mem (taken : c.name ∈ s.names) : s.add c = s := by
  rw [add, add?_of_mem taken, Option.getD_none]

theorem columns_add (fresh : c.name ∉ s.names) : (s.add c).columns = s.columns ++ [c] := by
  rw [add, add?, dif_neg fresh, Option.getD_some]

end Schema

end RelEngine
