import Mathlib.Data.List.Infix
import RelEngine.Plan.Update
import RelEngine.Proofs.Scan.Positions

/-!
One reader of a table while the table changes under it. Rows may be added, put under chosen ids, rewritten and
removed before, under and after the reader between any two of its steps, by itself or by others. It still goes
upwards, over rows that are there when it comes to them, and it misses no row that stays.
-/
namespace RelEngine

namespace TableView

/-- Something that happens while a reader goes over a table. -/
inductive Event where
  /-- The reader goes to its next row. -/
  | next
  /-- The reader removes the row that it is on. -/
  | remove
  /-- Others change the rows, in any way: they allocate or insert some, erase some, modify some. -/
  | elsewhere (change : RowStore → RowStore)

namespace Event

/-- The rows of all tables and the place of the reader, after an event. A removal without a current row fails,
and nothing happens. -/
def step (t : TableView) : Event → Stores × Position → Stores × Position
  | next, (stores, p) => (stores, (((Scan.table t).next stores).runFrom p).2)
  | remove, (stores, p) =>
    match (Plan.table t).remove stores p with
    | .ok after => after
    | .error _ => (stores, p)
  | elsewhere change, (stores, p) => (stores.update t.store change, p)

/-- The row that the reader goes to, and the rows of the table at that moment. -/
def visit? (t : TableView) : Event → Stores × Position → Option (RowId × RowStore)
  | next, (stores, p) =>
    match ((Scan.table t).next stores).runFrom p with
    | (.ok true, p') => p'.rowId?.map fun id => (id, t.rows stores)
    | _ => none
  | _, _ => none

end Event

/-- What the events lead to. -/
def after (t : TableView) (events : List Event) (s : Stores × Position) : Stores × Position :=
  events.foldl (fun s e => e.step t s) s

/-- The rows that the reader goes to, each with the rows of the table at that moment. -/
def visits (t : TableView) : List Event → Stores × Position → List (RowId × RowStore)
  | [], _ => []
  | e :: events, s => (e.visit? t s).toList ++ t.visits events (e.step t s)

/-- What the reader answers if it is asked for its next row. -/
def answer (t : TableView) (s : Stores × Position) : Checked Bool :=
  (((Scan.table t).next s.1).runFrom s.2).1

variable {t : TableView} {s : Stores × Position} {id : RowId} {rows : RowStore}

/-! ## One event -/

/-- The place of the reader only moves upwards. -/
theorem Event.isBefore_of_step (e : Event) (h : (e.step t s).2.isBefore id = true) :
    s.2.isBefore id = true := by
  obtain ⟨stores, p⟩ := s
  cases e with
  | next =>
    rw [step, Scan.runFrom_table_next] at h
    cases following : p.following? (t.rows stores) with
    | none =>
      rw [following] at h
      cases h
    | some here =>
      rw [following] at h
      exact Position.isBefore_of_later (Position.of_following? following).2.1 h
  | remove =>
    cases p with
    | beforeFirst => exact h
    | onRow here => exact h
    | afterRemoved here => exact h
    | exhausted => exact h
  | elsewhere change => exact h

/-- The row that is visited was to come, it is there, and it is to come no more. -/
theorem Event.of_visit? {e : Event} (h : e.visit? t s = some (id, rows)) :
    id ∈ rows.ids ∧ s.2.isBefore id = true ∧ ∀ other, (e.step t s).2.isBefore other = true → id < other := by
  obtain ⟨stores, p⟩ := s
  cases e with
  | next =>
    rw [visit?, Scan.runFrom_table_next] at h
    cases following : p.following? (t.rows stores) with
    | none =>
      rw [following] at h
      cases h
    | some here =>
      rw [following] at h
      cases h
      obtain ⟨isRow, toCome, -⟩ := Position.of_following? following
      refine ⟨isRow, toCome, fun other later => ?_⟩
      rw [step, Scan.runFrom_table_next, following] at later
      exact of_decide_eq_true later
  | remove => cases h
  | elsewhere change => cases h

/-- A row that was to come and is there is still to come after an event, unless it is the one that was visited. -/
theorem Event.isBefore_or_visited (e : Event) (isRow : id ∈ (t.rows s.1).ids) (toCome : s.2.isBefore id = true) :
    (e.step t s).2.isBefore id = true ∨ e.visit? t s = some (id, t.rows s.1) := by
  obtain ⟨stores, p⟩ := s
  cases e with
  | next =>
    rw [step, visit?, Scan.runFrom_table_next]
    cases following : p.following? (t.rows stores) with
    | none =>
      have passed := Position.of_following?_none following id isRow
      rw [toCome] at passed
      cases passed
    | some here =>
      rcases Nat.lt_or_eq_of_le ((Position.of_following? following).2.2 id isRow toCome) with above | rfl
      · exact .inl (decide_eq_true above)
      · exact .inr rfl
  | remove =>
    cases p with
    | beforeFirst => exact .inl toCome
    | onRow here => exact .inl toCome
    | afterRemoved here => exact .inl toCome
    | exhausted => cases toCome
  | elsewhere change => exact .inl toCome

/-! ## Runs -/

/-- The visits go upwards from the place of the reader, over rows that are there. -/
theorem visits_ascending (events : List Event) (s : Stores × Position) :
    (t.visits events s).Pairwise (fun v w => v.1 < w.1) ∧
      ∀ v ∈ t.visits events s, s.2.isBefore v.1 = true ∧ v.1 ∈ v.2.ids := by
  induction events generalizing s with
  | nil => exact ⟨.nil, nofun⟩
  | cons e events ih =>
    obtain ⟨ascending, toCome⟩ := ih (e.step t s)
    rw [visits]
    cases visited : e.visit? t s with
    | none => exact ⟨ascending, fun v mem => ⟨e.isBefore_of_step (toCome v mem).1, (toCome v mem).2⟩⟩
    | some v =>
      obtain ⟨isRow, wasToCome, behind⟩ := Event.of_visit? visited
      refine ⟨List.pairwise_cons.2 ⟨fun w mem => behind w.1 (toCome w mem).1, ascending⟩, ?_⟩
      intro w mem
      rcases List.mem_cons.1 mem with rfl | mem
      · exact ⟨wasToCome, isRow⟩
      · exact ⟨e.isBefore_of_step (toCome w mem).1, (toCome w mem).2⟩

/-- A row to come that stays is visited, or it is still to come. -/
theorem visited_or_isBefore (events : List Event) (s : Stores × Position) (toCome : s.2.isBefore id = true)
    (stays : ∀ past, past <+: events → id ∈ (t.rows (t.after past s).1).ids) :
    id ∈ (t.visits events s).map (·.1) ∨ (t.after events s).2.isBefore id = true := by
  induction events generalizing s with
  | nil => exact .inr toCome
  | cons e events ih =>
    have isRow : id ∈ (t.rows s.1).ids := stays [] List.nil_prefix
    rw [visits, List.map_append, List.mem_append]
    rcases e.isBefore_or_visited isRow toCome with still | visited
    · rcases ih (e.step t s) still fun past isPast =>
          stays (e :: past) (List.cons_prefix_cons.2 ⟨rfl, isPast⟩) with later | never
      · exact .inl (.inr later)
      · exact .inr never
    · rw [visited]
      exact .inl (.inl List.mem_cons_self)

/-- Whatever happens to a table while a reader goes over it from before its first row: the ids that the reader
comes to ascend, so it comes to no row twice, and each has a row at that moment. Its steps never fail, and one
that succeeds leaves it on a row. When it answers that there are no more rows, it has been exactly once on every
row that was there all the time. -/
theorem visits_stable (t : TableView) (stores : Stores) (events : List Event) :
    (t.visits events (stores, .beforeFirst)).Pairwise (fun v w => v.1 < w.1) ∧
      (∀ v ∈ t.visits events (stores, .beforeFirst), v.1 ∈ v.2.ids) ∧
      ∀ past, past <+: events → ∃ more, t.answer (t.after past (stores, .beforeFirst)) = .ok more ∧
        (more = true →
          (Event.next.visit? t (t.after past (stores, .beforeFirst))).isSome = true) ∧
        (more = false → ∀ id,
          (∀ earlier, earlier <+: past → id ∈ (t.rows (t.after earlier (stores, .beforeFirst)).1).ids) →
            ((t.visits past (stores, .beforeFirst)).map (·.1)).count id = 1) := by
  obtain ⟨ascending, toCome⟩ := visits_ascending events (t := t) (stores, .beforeFirst)
  refine ⟨ascending, fun v mem => (toCome v mem).2, fun past _ =>
    ⟨_, rfl, fun more => ?_, fun ended id stays => ?_⟩⟩
  · obtain ⟨here, following⟩ := Option.isSome_iff_exists.1 more
    rw [Event.visit?, Scan.runFrom_table_next, following]
    rfl
  · have distinct : ((t.visits past (stores, .beforeFirst)).map (·.1)).Nodup :=
      List.pairwise_map.2 ((visits_ascending past (t := t) (stores, .beforeFirst)).1.imp Nat.ne_of_lt)
    refine List.count_eq_one_of_mem distinct ?_
    refine (visited_or_isBefore past (stores, .beforeFirst) rfl stays).resolve_right fun still => ?_
    have none := Option.not_isSome_iff_eq_none.1 (ne_true_of_eq_false ended)
    have passed := Position.of_following?_none none id (stays past List.prefix_rfl)
    rw [still] at passed
    cases passed

/-- The only table, with rows under the ids from 0 to 3. -/
def crowdedTable : TableView := ⟨"t", .empty, 0⟩

def crowdedRows : Stores := [.ofEntries [(0, []), (1, []), (2, []), (3, [])]]

/-- The reader removes its first row. Others remove the one after it, add one, put the removed one back behind the
reader, and remove the row that the reader is on, which the reader then removes once more. -/
def crowdedEvents : List Event :=
  [.next, .remove, .elsewhere (·.erase 1), .elsewhere fun rows => (rows.allocate []).1, .next,
    .elsewhere (·.insert 1 []), .elsewhere (·.erase 2), .remove, .next, .next]

theorem visits_stable_crowded :
    (crowdedTable.visits crowdedEvents (crowdedRows, .beforeFirst)).map (·.1) = [0, 2, 3, 4] ∧
      crowdedTable.answer (crowdedTable.after crowdedEvents (crowdedRows, .beforeFirst)) = .ok false ∧
      ((crowdedTable.visits crowdedEvents (crowdedRows, .beforeFirst)).map (·.1)).count 3 = 1 := by
  have ended : crowdedTable.answer (crowdedTable.after crowdedEvents (crowdedRows, .beforeFirst)) = .ok false := by
    decide +kernel
  have stays : ∀ earlier ∈ crowdedEvents.inits,
      3 ∈ (crowdedTable.rows (crowdedTable.after earlier (crowdedRows, .beforeFirst)).1).ids := by
    decide +kernel
  refine ⟨by decide +kernel, ended, ?_⟩
  obtain ⟨more, answers, -, once⟩ :=
    (visits_stable crowdedTable crowdedRows crowdedEvents).2.2 crowdedEvents List.prefix_rfl
  rw [ended] at answers
  cases answers
  exact once rfl 3 fun earlier isPast => stays earlier ((List.mem_inits _ _).2 isPast)

end TableView

end RelEngine
