import Mathlib.Algebra.Order.Ring.Nat
import Mathlib.Data.List.Infix
import RelEngine.Proofs.RowStore

/-!
The ids of one table's rows over its whole history. The mark stands right above the highest id that was ever in use,
also if its row is gone, so the ids that are given out ascend and none of them has had a row before.

The main statement is `RowStore.allocate_fresh`.
-/
namespace RelEngine.RowStore

/-- What is asked of one table's rows. -/
inductive Call where
  | allocate (row : Bytes)
  | insert (id : RowId) (row : Bytes)
  | erase (id : RowId)
  /-- The row is changed where it is. -/
  | modify (id : RowId) (change : Bytes → Bytes)
  /-- A row or an id is looked up, or all of them are listed. -/
  | lookUp

/-- The rows after a call, unless the program stops in it. -/
def perform? (s : RowStore) : Call → Option RowStore
  | .allocate row => (s.allocate? row).map (·.1)
  | .insert id row => s.insert? id row
  | .erase id => some (s.erase id)
  | .modify id change => some (s.modify id change)
  | .lookUp => some s

def performAll? (s : RowStore) (calls : List Call) : Option RowStore := calls.foldlM perform? s

/-- The rows of a table that was empty at first, unless the program stopped. -/
def after? (calls : List Call) : Option RowStore := empty.performAll? calls

/-- The id had a row at some time during the calls. -/
def WasUsed (calls : List Call) (id : RowId) : Prop :=
  ∃ earlier s, earlier <+: calls ∧ after? earlier = some s ∧ id ∈ s.ids

variable {s s' : RowStore} {calls earlier : List Call} {call : Call} {id : RowId} {row : Bytes}

/-! ## One call -/

theorem mem_ids_insert (s : RowStore) (id : RowId) (row : Bytes) : id ∈ (s.insert id row).ids :=
  mem_ids_iff.2 ⟨row, SortedMap.find?_insert_self row⟩

theorem nextId_insert (s : RowStore) (id : RowId) (row : Bytes) :
    (s.insert id row).nextId = max s.nextId (id + 1) := rfl

/-- A call puts a row under an id with a next one, or it leaves the mark alone. -/
theorem perform?_cases (h : s.perform? call = some s') :
    (∃ id row, id + 1 < RowId.limit ∧ s.insert id row = s') ∨ s'.nextId = s.nextId := by
  cases call with
  | allocate row =>
    obtain ⟨r, allocates, rfl⟩ := Option.map_eq_some_iff.1 h
    obtain ⟨fits, rfl⟩ := allocate?_eq_some_iff.1 allocates
    exact .inl ⟨s.nextId, row, fits, rfl⟩
  | insert id row => exact .inl ⟨id, row, insert?_eq_some_iff.1 h⟩
  | erase id =>
    cases h
    exact .inr rfl
  | modify id change =>
    cases h
    exact .inr rfl
  | lookUp =>
    cases h
    exact .inr rfl

theorem nextId_le_perform? (h : s.perform? call = some s') : s.nextId ≤ s'.nextId := by
  rcases perform?_cases h with ⟨id, row, -, rfl⟩ | same
  · exact Nat.le_max_left _ _
  · exact same.ge

/-! ## Runs -/

theorem nextId_le_performAll? (h : s.performAll? calls = some s') : s.nextId ≤ s'.nextId := by
  induction calls generalizing s with
  | nil =>
    cases h
    exact Nat.le_refl _
  | cons call calls ih =>
    obtain ⟨next, first, more⟩ := Option.bind_eq_some_iff.1 h
    exact (nextId_le_perform? first).trans (ih more)

theorem after?_append (earlier later : List Call) :
    after? (earlier ++ later) = (after? earlier).bind (performAll? · later) :=
  List.foldlM_append

theorem after?_concat (calls : List Call) (call : Call) :
    after? (calls ++ [call]) = (after? calls).bind (perform? · call) := by
  rw [after?_append]
  exact congrArg _ (funext fun s => bind_pure (s.perform? call))

theorem WasUsed.append (h : WasUsed calls id) (later : List Call) : WasUsed (calls ++ later) id := by
  obtain ⟨earlier, s, isPrefix, reached, mem⟩ := h
  exact ⟨earlier, s, isPrefix.trans (List.prefix_append calls later), reached, mem⟩

/-- Marks never fall. -/
theorem nextId_mono (isPrefix : earlier <+: calls) (reached : after? earlier = some s)
    (reached' : after? calls = some s') : s.nextId ≤ s'.nextId := by
  obtain ⟨later, rfl⟩ := isPrefix
  rw [after?_append, reached] at reached'
  exact nextId_le_performAll? reached'

theorem lt_nextId_of_used (used : WasUsed calls id) (reached : after? calls = some s) : id < s.nextId := by
  obtain ⟨earlier, s₀, isPrefix, reached₀, mem⟩ := used
  obtain ⟨e, isEntry, rfl⟩ := List.mem_map.1 mem
  exact (s₀.below e isEntry).trans_le (nextId_mono isPrefix reached₀ reached)

/-- What a call puts in was in use then. -/
theorem wasUsed_of_insert (reached : after? (calls ++ [call]) = some (s.insert id row)) :
    WasUsed (calls ++ [call]) id :=
  ⟨_, _, List.prefix_rfl, reached, mem_ids_insert s id row⟩

/-- A row put the mark where it is, and it is a number of 64 bits. The induction is on the calls, the last one
apart. -/
theorem exists_used_below (reached : after? calls = some s) :
    s.nextId < RowId.limit ∧ (s.nextId = 0 ∨ ∃ id, WasUsed calls id ∧ s.nextId = id + 1) := by
  induction calls using List.reverseRecOn generalizing s with
  | nil =>
    cases reached
    exact ⟨Nat.two_pow_pos 64, .inl rfl⟩
  | append_singleton calls call ih =>
    obtain ⟨s₀, before, last⟩ := Option.bind_eq_some_iff.1 (after?_concat calls call ▸ reached)
    obtain ⟨fits₀, origin⟩ := ih before
    have origin' : s₀.nextId = 0 ∨ ∃ id, WasUsed (calls ++ [call]) id ∧ s₀.nextId = id + 1 :=
      origin.imp_right fun ⟨id, used, isMark⟩ => ⟨id, used.append [call], isMark⟩
    rcases perform?_cases last with ⟨id, row, fits, rfl⟩ | same
    · rw [nextId_insert]
      rcases Nat.le_total (id + 1) s₀.nextId with below | above
      · rw [Nat.max_eq_left below]
        exact ⟨fits₀, origin'⟩
      · rw [Nat.max_eq_right above]
        exact ⟨fits, .inr ⟨id, wasUsed_of_insert reached, rfl⟩⟩
    · rw [same]
      exact ⟨fits₀, origin'⟩

/-- The mark is the least bound of all ids that were in use. -/
theorem isLeast_nextId (reached : after? calls = some s) :
    IsLeast {bound | ∀ id, WasUsed calls id → id < bound} s.nextId := by
  refine ⟨fun id used => lt_nextId_of_used used reached, fun bound isBound => ?_⟩
  rcases (exists_used_below reached).2 with isZero | ⟨id, used, isMark⟩
  · rw [isZero]
    exact Nat.zero_le bound
  · rw [isMark]
    exact isBound id used

/-- A table gives out ids until the last one with a next one was in use. -/
theorem allocate?_eq_none_iff_used (reached : after? calls = some s) :
    s.allocate? row = none ↔ WasUsed calls (2 ^ 64 - 2) := by
  obtain ⟨fits, origin⟩ := exists_used_below reached
  rw [allocate?_eq_none_iff]
  constructor
  · intro stops
    have isLimit : RowId.limit = s.nextId + 1 := Nat.le_antisymm stops fits
    rcases origin with isZero | ⟨id, used, isMark⟩
    · rw [isZero] at isLimit
      exact absurd isLimit (by decide)
    · rw [isMark] at isLimit
      have last : id = 2 ^ 64 - 2 := Nat.eq_sub_of_add_eq isLimit.symm
      exact last ▸ used
  · intro used
    exact Nat.succ_le_succ (lt_nextId_of_used used reached)

/-- Whatever was asked before: a new row gets the least id above all ids that were ever in use, also if their rows are
gone. So it replaces no row, the other rows stay, and no id is given out a second time. The id after any number is the
least id in use above it.

Only a sum that is no number of 64 bits stops the program: no id below `2 ^ 64 - 1` is refused for a row, and a new row
is given one as long as `2 ^ 64 - 2` has not been in use. -/
theorem allocate_fresh (calls : List Call) (s : RowStore) (reached : after? calls = some s) (row : Bytes) :
    (∀ s' new, s.allocate? row = some (s', new) →
      IsLeast {bound | ∀ id, WasUsed calls id → id < bound} new ∧
      (∀ earlier row' s₀ s₁ old, earlier ++ [.allocate row'] <+: calls → after? earlier = some s₀ →
        s₀.allocate? row' = some (s₁, old) → old < new) ∧
      s.find? new = none ∧ ∀ id, s'.find? id = if id = new then some row else s.find? id) ∧
    (s.allocate? row = none ↔ WasUsed calls (2 ^ 64 - 2)) ∧
    (∀ id row', s.insert? id row' = none ↔ 2 ^ 64 - 1 ≤ id) ∧
    (∀ id next, s.idAfter? id = some next ↔ IsLeast {other | other ∈ s.ids ∧ id < other} next) ∧
    ∀ id, s.idAfter? id = none ↔ ∀ other ∈ s.ids, other ≤ id := by
  refine ⟨fun s' new allocates => ?_, allocate?_eq_none_iff_used reached,
    fun _ _ => insert?_eq_none_iff.trans Nat.sub_le_iff_le_add.symm, fun _ _ => idAfter?_eq_some_iff,
    fun _ => idAfter?_eq_none_iff⟩
  obtain ⟨-, same⟩ := allocate?_eq_some_iff.1 allocates
  cases same
  have fresh := isLeast_nextId reached
  refine ⟨fresh, fun earlier row' s₀ s₁ old isPrefix reached₀ allocates₀ => ?_, find?_nextId, fun id => ?_⟩
  · have reached₁ : after? (earlier ++ [.allocate row']) = some s₁ := by
      rw [after?_concat, reached₀]
      exact congrArg (Option.map (·.1)) allocates₀
    obtain ⟨-, same⟩ := allocate?_eq_some_iff.1 allocates₀
    cases same
    exact fresh.1 _ ⟨_, _, isPrefix, reached₁, mem_ids_insert s₀ s₀.nextId row'⟩
  · split
    · next isNew =>
      rw [isNew]
      exact find?_allocate_self row
    · next isOld => exact find?_allocate_of_ne row isOld

/-- The last row is gone, and so is one that was far above it. -/
def Call.tailErased : List Call := [.allocate [1], .allocate [2], .erase 1, .insert 10 [3], .erase 10, .lookUp]

theorem allocate_fresh_tailErased :
    ∃ s s', after? Call.tailErased = some s ∧ s.ids = [0] ∧ s.allocate? [4] = some (s', 11) ∧
      (∀ id, WasUsed Call.tailErased id → id < 11) ∧ ¬ WasUsed Call.tailErased (2 ^ 64 - 2) := by
  have ids : (after? Call.tailErased).map (·.ids) = some [0] := by decide +kernel
  have new : (after? Call.tailErased).map (fun s => (s.allocate? [4]).map (·.2)) = some (some 11) := by
    decide +kernel
  obtain ⟨s, reached, isOne⟩ := Option.map_eq_some_iff.1 ids
  rw [reached, Option.map_some, Option.some.injEq] at new
  obtain ⟨⟨s', _⟩, allocates, rfl⟩ := Option.map_eq_some_iff.1 new
  obtain ⟨gives, stops, -⟩ := allocate_fresh Call.tailErased s reached [4]
  refine ⟨s, s', reached, isOne, allocates, (gives s' _ allocates).1.1, fun used => ?_⟩
  rw [stops.2 used] at allocates
  cases allocates

/-- The last id that a row can have is taken. -/
example : (after? [.insert (2 ^ 64 - 2) [1]]).map (fun s => (s.allocate? [2]).isNone) = some true := by decide +kernel

end RelEngine.RowStore
