import RelEngine.Proofs.Schema
import RelEngine.Proofs.SortedMap

/-!
Schemas that are built up column by column, with the places of the columns written down on the way.

Offsets are written down as counted from the end of the null bits, since later columns add to these and
move all fields. Whatever is added, each place is the one that follows from the columns alone, and the fields
fill the row from the null bits to its end. The main statement is `Schema.ofColumns_tiled`.
-/
namespace RelEngine

/-! ## Tiling -/

/-- The fields lie one after the other, the first at `start` and the last up to `stop`. -/
def Slot.Tile : Nat → List Slot → Nat → Prop
  | start, [], stop => start = stop
  | start, slot :: rest, stop => slot.offset = start ∧ Tile (start + slot.column.size) rest stop

theorem Slot.le_of_tile {start stop : Nat} {slots : List Slot} (h : Tile start slots stop) :
    ∀ slot ∈ slots, start ≤ slot.offset := by
  induction slots generalizing start with
  | nil => exact nofun
  | cons slot slots ih =>
    obtain ⟨first, rest⟩ := h
    rintro other (_ | ⟨_, mem⟩)
    · exact first.ge
    · exact Nat.le_of_add_right_le (ih rest other mem)

/-- No two of them overlap. -/
theorem Slot.pairwise_of_tile {start stop : Nat} {slots : List Slot} (h : Tile start slots stop) :
    slots.Pairwise fun a b => a.offset + a.column.size ≤ b.offset := by
  induction slots generalizing start with
  | nil => exact .nil
  | cons slot slots ih =>
    obtain ⟨rfl, rest⟩ := h
    exact .cons (le_of_tile rest) (ih rest)

namespace Schema

variable {s : Schema} {c : Column} {name : String} {slot : Slot}

theorem getElem?_slots (s : Schema) (i : Nat) :
    s.slots[i]? = s.columns[i]?.map fun c => ⟨i, s.bitmapSize + s.fieldBytes i, c⟩ :=
  List.getElem?_mapIdx

theorem length_slots (s : Schema) : s.slots.length = s.size := List.length_mapIdx

/-- The fields from one of them on. The induction is on how many there are. -/
theorem tile_drop (s : Schema) {i count : Nat} (rest : i + count = s.size) :
    Slot.Tile (s.bitmapSize + s.fieldBytes i) (s.slots.drop i) s.rowSize := by
  induction count generalizing i with
  | zero =>
    rw [Nat.add_zero] at rest
    rw [List.drop_of_length_le (by rw [length_slots, rest]), rest]
    rfl
  | succ count ih =>
    have inside : i < s.columns.length := by
      change i < s.size
      omega
    have isColumn := List.getElem?_eq_getElem inside
    have isSlot : s.slots[i]? = some ⟨i, s.bitmapSize + s.fieldBytes i, s.columns[i]⟩ := by
      rw [getElem?_slots, isColumn]
      rfl
    rw [List.drop_eq_getElem?_toList_append, isSlot]
    refine ⟨rfl, ?_⟩
    rw [Nat.add_assoc, ← fieldBytes_succ isColumn]
    exact ih (by omega)

theorem tile_slots (s : Schema) : Slot.Tile s.bitmapSize s.slots s.rowSize :=
  s.tile_drop (i := 0) (Nat.zero_add _)

theorem names_of_slot? (h : s.slot? name = some slot) : s.names[slot.index]? = some name := by
  rw [names, List.getElem?_map, (mem_of_slot? h).1, Option.map_some, name_of_slot? h]

/-- A name is found where it stands in the list of names, and only there. -/
theorem exists_slot_iff {i : Nat} :
    (∃ slot, s.slot name = .ok slot ∧ slot.index = i) ↔ s.names[i]? = some name := by
  constructor
  · rintro ⟨slot, found, rfl⟩
    exact names_of_slot? (slot_eq_ok.1 found)
  · intro stands
    obtain ⟨slot, found⟩ := slot_of_has (has_iff.2 (List.mem_of_getElem? stands))
    have inside : i < s.names.length := (List.getElem?_eq_some_iff.1 stands).1
    have same := stands.trans (names_of_slot? (slot_eq_ok.1 found)).symm
    exact ⟨slot, found, ((List.getElem?_inj inside s.nodup).1 same).symm⟩

/-- A column is found under its name in its own place. -/
theorem slot_of_mem (mem : slot ∈ s.slots) : s.slot slot.column.name = .ok slot := by
  obtain ⟨i, isSlot⟩ := List.mem_iff_getElem?.1 mem
  rw [getElem?_slots] at isSlot
  obtain ⟨c, isColumn, rfl⟩ := Option.map_eq_some_iff.1 isSlot
  have stands : s.names[i]? = some c.name := by
    rw [names, List.getElem?_map, isColumn, Option.map_some]
  obtain ⟨⟨_, offset, d⟩, found, rfl⟩ := exists_slot_iff.2 stands
  obtain ⟨isColumn', isOffset⟩ := mem_of_slot? (slot_eq_ok.1 found)
  cases isColumn.symm.trans isColumn'
  rw [← isOffset]
  exact found

theorem bit_inside (mem : slot ∈ s.slots) : slot.index < 8 * s.bitmapSize := by
  have inside := (field_inside (slot_eq_ok.1 (slot_of_mem mem))).2.2
  rw [bitmapSize]
  omega

/-- The places of the columns: each column is found under its name, where the name stands among the columns; the
fields follow one another from the null bits to the end of the row, and each column has a null bit. -/
structure Tiled (s : Schema) : Prop where
  distinct : s.names.Nodup
  position : ∀ name i, (∃ slot, s.slot name = .ok slot ∧ slot.index = i) ↔ s.names[i]? = some name
  found : s.names.map s.slot = s.slots.map .ok
  tile : Slot.Tile s.bitmapSize s.slots s.rowSize
  apart : s.slots.Pairwise fun a b => a.offset + a.column.size ≤ b.offset
  bits : ∀ slot ∈ s.slots, slot.index < 8 * s.bitmapSize

theorem tiled (s : Schema) : s.Tiled where
  distinct := s.nodup
  position _ _ := exists_slot_iff
  found := by
    rw [← s.names_slots, List.map_map]
    exact List.map_congr_left fun slot mem => slot_of_mem mem
  tile := s.tile_slots
  apart := Slot.pairwise_of_tile s.tile_slots
  bits _ := bit_inside

end Schema

/-! ## Places that are written down -/

theorem getElem?_concat_iff {α : Type} {xs : List α} {a b : α} {i : Nat} :
    (xs ++ [a])[i]? = some b ↔ xs[i]? = some b ∨ i = xs.length ∧ b = a := by
  rw [List.getElem?_append]
  split
  · next inside => exact ⟨.inl, fun h => h.resolve_right fun last => absurd last.1 inside.ne⟩
  · next outside =>
    rw [List.getElem?_eq_none (Nat.not_lt.1 outside), List.getElem?_singleton]
    split
    · next last =>
      have same : i = xs.length := Nat.le_antisymm (Nat.sub_eq_zero_iff_le.1 last) (Nat.not_lt.1 outside)
      exact ⟨fun h => .inr ⟨same, (Option.some.inj h).symm⟩, fun h => h.elim nofun fun h => congrArg some h.2.symm⟩
    · next beyond =>
      refine ⟨nofun, fun h => h.elim nofun fun h => absurd ?_ beyond⟩
      rw [h.1, Nat.sub_self]

/-- A schema with all places written down as its columns were added. -/
structure Layout where
  columns : List Column
  /-- Where the fields start, counted from the end of the null bits. -/
  offsets : List Nat
  /-- Bytes of all fields together. -/
  dataSize : Nat
  indices : SortedMap String Nat

namespace Layout

def empty : Layout := ⟨[], [], 0, .empty⟩

/-- Appends a column, unless its name is taken. The answer tells whether it was. -/
def add (l : Layout) (c : Column) : Bool × Layout :=
  if l.indices.contains c.name then (false, l)
  else
    (true, ⟨l.columns ++ [c], l.offsets ++ [l.dataSize], l.dataSize + c.size,
      l.indices.insert c.name l.columns.length⟩)

def ofColumns (columns : List Column) : Layout := columns.foldl (fun l c => (l.add c).2) empty

def bitmapSize (l : Layout) : Nat := (l.columns.length + 7) / 8

def rowSize (l : Layout) : Nat := l.bitmapSize + l.dataSize

/-- The place of a name, as it was written down. -/
def slot? (l : Layout) (name : String) : Option Slot := do
  let i ← l.indices.find? name
  return ⟨i, l.bitmapSize + (← l.offsets[i]?), ← l.columns[i]?⟩

/-- What was written down is what follows from the columns. -/
structure Records (l : Layout) (s : Schema) : Prop where
  columns : l.columns = s.columns
  offsets : l.offsets = (List.range s.size).map s.fieldBytes
  dataSize : l.dataSize = s.fieldBytes s.size
  indices : ∀ name i, l.indices.find? name = some i ↔ s.names[i]? = some name

variable {l : Layout} {s : Schema} {c : Column}

theorem records_empty : empty.Records .empty := ⟨rfl, rfl, rfl, fun _ _ => ⟨nofun, nofun⟩⟩

theorem Records.contains (h : l.Records s) (name : String) : l.indices.contains name = s.has name := by
  rw [Bool.eq_iff_iff, SortedMap.contains, Option.isSome_iff_exists, Schema.has_iff, List.mem_iff_getElem?]
  exact exists_congr (h.indices name)

/-- A new column stands behind the others, which keep their places among the fields. -/
theorem Records.add (h : l.Records s) (c : Column) :
    (l.add c).1 = (s.add? c).isSome ∧ (l.add c).2.Records (s.add c) := by
  by_cases taken : c.name ∈ s.names
  · have isTaken : l.indices.contains c.name = true := (h.contains c.name).trans (Schema.has_iff.2 taken)
    rw [Layout.add, if_pos isTaken, Schema.add?_of_mem taken, Schema.add_of_mem taken]
    exact ⟨rfl, h⟩
  · have notTaken : ¬ l.indices.contains c.name = true := by
      rwa [h.contains, Schema.has_iff]
    have columns := Schema.columns_add taken
    have size : (s.add c).size = s.size + 1 := by
      rw [Schema.size, columns, List.length_append, List.length_singleton, Schema.size]
    have names : (s.add c).names = s.names ++ [c.name] := by
      rw [Schema.names, columns, List.map_append, List.map_singleton, Schema.names]
    have fieldBytes : ∀ i ≤ s.size, (s.add c).fieldBytes i = s.fieldBytes i := fun i inside => by
      rw [Schema.fieldBytes, columns, List.take_append_of_le_length inside, Schema.fieldBytes]
    have last : (s.add c).columns[s.size]? = some c := by
      rw [columns]
      exact List.getElem?_concat_length
    rw [Layout.add, if_neg notTaken, Schema.add?, dif_neg taken]
    refine ⟨rfl, { columns := ?_, offsets := ?_, dataSize := ?_, indices := fun name i => ?_ }⟩
    · rw [columns, ← h.columns]
    · rw [size, List.range_succ, List.map_append, List.map_singleton, fieldBytes _ le_rfl,
        List.map_congr_left fun i mem => fieldBytes i (List.mem_range.1 mem).le, ← h.offsets, ← h.dataSize]
    · rw [size, Schema.fieldBytes_succ last, fieldBytes _ le_rfl, ← h.dataSize]
    · rw [names, getElem?_concat_iff, ← h.indices]
      have length : l.columns.length = s.names.length := by
        rw [h.columns, Schema.names, List.length_map]
      by_cases same : name = c.name
      · subst same
        have fresh : l.indices.find? c.name ≠ some i := fun found =>
          taken (List.mem_of_getElem? ((h.indices _ _).1 found))
        rw [SortedMap.find?_insert_self, Option.some.injEq, length, or_iff_right fresh, eq_comm, and_iff_left rfl]
      · rw [SortedMap.find?_insert_of_ne _ same, or_iff_left fun h => same h.2]

/-- Every addition is written down. -/
theorem records_ofColumns (columns : List Column) : (ofColumns columns).Records (Schema.ofColumns columns) := by
  have added : ∀ (l : Layout) (s : Schema), l.Records s →
      (columns.foldl (fun l c => (l.add c).2) l).Records (columns.foldl Schema.add s) := by
    induction columns with
    | nil => exact fun _ _ h => h
    | cons c columns ih => exact fun l s h => ih _ _ (h.add c).2
  exact added empty .empty records_empty

/-- The same columns are found in the same places. -/
structure Agrees (l : Layout) (s : Schema) : Prop where
  columns : l.columns = s.columns
  bitmapSize : l.bitmapSize = s.bitmapSize
  rowSize : l.rowSize = s.rowSize
  slot? : ∀ name, l.slot? name = s.slot? name

theorem Records.agrees (h : l.Records s) : l.Agrees s := by
  have bitmapSize : l.bitmapSize = s.bitmapSize := by
    rw [Layout.bitmapSize, h.columns, Schema.bitmapSize, Schema.size]
  refine ⟨h.columns, bitmapSize, ?_, fun name => ?_⟩
  · rw [rowSize, bitmapSize, h.dataSize, Schema.rowSize]
  · rw [slot?, bitmapSize, h.columns, h.offsets]
    cases found : s.slot? name with
    | none =>
      cases stands : l.indices.find? name with
      | none => rfl
      | some i =>
        obtain ⟨slot, found', -⟩ := Schema.exists_slot_iff.2 ((h.indices name i).1 stands)
        cases found.symm.trans (Schema.slot_eq_ok.1 found')
    | some slot =>
      obtain ⟨isColumn, isOffset⟩ := Schema.mem_of_slot? found
      have inside : slot.index < s.size := (Schema.field_inside found).2.2
      rw [(h.indices _ _).2 (Schema.names_of_slot? found)]
      simp only [Option.bind_eq_bind, Option.bind_some, List.getElem?_map, List.getElem?_range inside,
        Option.map_some, isColumn, ← isOffset]
      rfl

end Layout

/-- After any additions to the empty schema, names repeated or not, the fields tile the row. To write the places down
while columns are added gives the same places. A name that is taken is refused, and the schema with all that is
written down stays as it was. -/
theorem Schema.ofColumns_tiled (columns : List Column) :
    (ofColumns columns).Tiled ∧ (Layout.ofColumns columns).Agrees (ofColumns columns) ∧
      ∀ c, ((Layout.ofColumns columns).add c).1 = ((ofColumns columns).add? c).isSome ∧
        if c.name ∈ (ofColumns columns).names then
          (ofColumns columns).add? c = none ∧ (ofColumns columns).add c = ofColumns columns ∧
            (Layout.ofColumns columns).add c = (false, Layout.ofColumns columns)
        else ((ofColumns columns).add c).columns = (ofColumns columns).columns ++ [c] := by
  have records := Layout.records_ofColumns columns
  refine ⟨tiled _, records.agrees, fun c => ⟨(records.add c).1, ?_⟩⟩
  split
  · next taken =>
    refine ⟨add?_of_mem taken, add_of_mem taken, ?_⟩
    rw [Layout.add, if_pos ((records.contains c.name).trans (has_iff.2 taken))]
  · next fresh => exact columns_add fresh

/-- Nine columns and one of them again; the ninth takes a second byte of null bits. -/
example :
    let l := Layout.ofColumns ((["a", "b", "c", "d", "e", "f", "g", "h", "b", "i"].map fun name =>
      .plain name .int 0))
    l.columns.length = 9 ∧ l.slot? "b" = some ⟨1, 6, .plain "b" .int 0⟩ ∧ l.rowSize = 38 := by
  decide +kernel

end RelEngine
