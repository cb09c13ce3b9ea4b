import RelEngine.Proofs.Statement.References

/-!
References of a table to itself under an UPDATE. The new values are checked against the table as it was,
so a parent that was found for one of them may itself get another value by the same statement.
-/
namespace RelEngine

variable {db db' : Database} {view : TableView} {s : Update} {r : Reference} {writes : List Write}

/-- Each value that the writes change in the child field equals a value that they leave in the parent
field. -/
def Write.LeaveParents (writes : List Write) (db : Database) (r : Reference) : Prop :=
  ∀ id old, db.Reads r.childTable id r.childField old →
    valueAfter writes id r.childField old ≠ none →
    Value.identical (valueAfter writes id r.childField old) old = false →
    ∃ parent w, db.Reads r.parentTable parent r.parentField w ∧
      Value.Equals (valueAfter writes id r.childField old) (valueAfter writes parent r.parentField w)

namespace Update

/-- Each value that a planned UPDATE leaves in a child field was found in the parent field before it. -/
theorem parent_before (isView : db.view s.table none = .ok view) (planned : s.writes db = .ok writes)
    (mem : r ∈ db.references) (child : r.childTable = s.table) (before : db.Satisfied r) {id : RowId}
    {old : Value} (reads : db.Reads s.table id r.childField old)
    (notNull : Write.valueAfter writes id r.childField old ≠ none) :
    ∃ parent w, db.Reads r.parentTable parent r.parentField w ∧
      Value.Equals (Write.valueAfter writes id r.childField old) w := by
  rcases Write.valueAfter_mem writes id r.childField old with
    ⟨_, same⟩ | ⟨w, written, rfl, isField, isValue⟩
  · rw [same] at notNull ⊢
    exact before id old (child ▸ reads) notNull
  · have permits := (mem_writes isView planned w written).2.2 old
    rw [isField, ← isValue] at permits
    rcases permits reads with identical | ⟨parents, _⟩
    · have equals := Value.equals_of_identical identical notNull
      obtain ⟨parent, w, isParent, equals'⟩ := before w.id old (child ▸ reads) equals.ne_none.2
      exact ⟨parent, w, isParent, equals.trans equals'⟩
    · have isHere := Reference.hasChild_self child
      exact parents notNull r mem isHere

/-- A reference of the table to itself stays satisfied if every value that differs from the old one is
among the values that are left in the parent field. -/
theorem satisfied_after (wf : db.WellFormed) (succeeds : db.execute (.update s) = (.ok (), db'))
    (planned : s.writes db = .ok writes) (mem : r ∈ db.references) (noAction : r.onUpdate = .noAction)
    (before : db.Satisfied r)
    (leave : ∀ id old, db.Reads s.table id r.childField old →
      Write.valueAfter writes id r.childField old ≠ none →
      Write.valueAfter writes id r.childField old ≠ old →
      Value.identical (Write.valueAfter writes id r.childField old) old = false →
      ∃ parent w, db.Reads s.table parent r.parentField w ∧
        Value.Equals (Write.valueAfter writes id r.childField old)
          (Write.valueAfter writes parent r.parentField w)) : db'.Satisfied r := by
  have bare := wf.references r mem
  have after : (s.run.runFrom db).2 = db' := congrArg Prod.snd succeeds
  rcases s.rewrites wf with same | ⟨view, isView, h⟩
  · rw [← after, same]
    exact before
  · rw [after] at h
    refine h.satisfied wf isView mem noAction before ?_
    intro _ _ id old new isOld isNew differ changed notNull
    obtain ⟨old', isOld', rfl⟩ := (reads_after wf succeeds planned bare.1).1 isNew
    cases isOld.unique isOld'
    obtain ⟨parent, w, isParent, equals⟩ := leave id old isOld notNull differ changed
    exact ⟨parent, _, (reads_after wf succeeds planned bare.2).2 ⟨w, isParent, rfl⟩, equals⟩

end Update

/-- What becomes of a reference of a table to itself when an UPDATE of the table succeeds. Each new value
had a parent before. It has one afterwards unless the statement gives all its parents other values, and
that takes assignments to both fields. All columns are regular. -/
theorem Database.Reached.update_both_ends (reached : db.Reached fun _ s => s.Regular)
    (mem : r ∈ db.references) (enforced : r.Enforced) (child : r.childTable = s.table)
    (parent : r.parentTable = s.table) (before : db.Satisfied r)
    (succeeds : db.execute (.update s) = (.ok (), db')) :
    ∃ writes, s.writes db = .ok writes ∧
      (∀ id field v, FieldName.Bare field → (db'.Reads s.table id field v ↔
        ∃ old, db.Reads s.table id field old ∧ v = Write.valueAfter writes id field old)) ∧
      (∀ id v, db'.Reads s.table id r.childField v → v ≠ none →
        ∃ parent w, db.Reads s.table parent r.parentField w ∧ Value.Equals v w) ∧
      (db'.Satisfied r ↔ Write.LeaveParents writes db r) ∧
      (r.childField ∉ s.assignments.map (·.1) ∨ r.parentField ∉ s.assignments.map (·.1) →
        db'.Satisfied r) := by
  have wf := reached.wellFormed
  have bare := wf.references r mem
  obtain ⟨view, writes, isView, planned⟩ := Update.writes_of_run wf succeeds
  have isRead : ∀ {id field v}, FieldName.Bare field → (db'.Reads s.table id field v ↔
      ∃ old, db.Reads s.table id field old ∧ v = Write.valueAfter writes id field old) :=
    fun bare => Update.reads_after wf succeeds planned bare
  have found : ∀ id v, db'.Reads s.table id r.childField v → v ≠ none →
      ∃ parent w, db.Reads s.table parent r.parentField w ∧ Value.Equals v w := by
    intro id v reads notNull
    obtain ⟨old, isOld, rfl⟩ := (isRead bare.1).1 reads
    exact parent ▸ Update.parent_before isView planned mem child before isOld notNull
  have satisfied := Update.satisfied_after wf succeeds planned mem enforced.2 before
  refine ⟨writes, planned, fun id field v => isRead, found, ⟨fun after => ?_, fun leave => ?_⟩, ?_⟩
  · rw [Write.LeaveParents, child, parent]
    intro id old isOld notNull _
    have isNew := (isRead bare.1).2 ⟨old, isOld, rfl⟩
    obtain ⟨parentId, w, isParent, equals⟩ := after id _ (child ▸ isNew) notNull
    obtain ⟨old', isOld', rfl⟩ := (isRead bare.2).1 (parent ▸ isParent)
    exact ⟨parentId, old', isOld', equals⟩
  · rw [Write.LeaveParents, child, parent] at leave
    exact satisfied fun id old isOld notNull _ changed => leave id old isOld notNull changed
  · rintro (unassigned | unassigned)
    · exact satisfied fun id old _ _ differ =>
        absurd (Update.valueAfter_of_notMem isView planned unassigned) differ
    · refine satisfied fun id old isOld notNull _ _ => ?_
      obtain ⟨parent, w, isParent, equals⟩ := found id _ ((isRead bare.1).2 ⟨old, isOld, rfl⟩) notNull
      refine ⟨parent, w, isParent, ?_⟩
      rw [Update.valueAfter_of_notMem isView planned unassigned]
      exact equals

/-- A table whose field `f` refers to its field `g`. -/
def Database.ownParents : List Statement :=
  [.createTable ⟨"t", [.plain "f" .int 0, .plain "g" .int 0],
      [⟨"f", "t", "g", .noAction, .noAction⟩]⟩,
    .insert ⟨"t", none, [[.const none, .const (some (.int 1))], [.const none, .const (some (.int 2))]]⟩]

/-- Lets a row refer to itself and takes its value away. -/
def Update.ownParentLost : Update where
  table := "t"
  assignments := [("f", .const (some (.int 1))), ("g", .const (some (.int 3)))]
  filter := some (.apply .eq [.field "g", .const (some (.int 1))])

/-- The UPDATE succeeds, and no row has the value that `f` refers to. -/
theorem Database.update_both_ends_dangling :
    (afterAll ownParents).Satisfied ⟨"t", "f", "t", "g", .noAction, .noAction⟩ ∧
      ((afterAll ownParents).execute (.update .ownParentLost)).1 = .ok () ∧
      ¬ ((afterAll ownParents).execute (.update .ownParentLost)).2.Satisfied
        ⟨"t", "f", "t", "g", .noAction, .noAction⟩ ∧
      ∃ writes, Update.ownParentLost.writes (afterAll ownParents) = .ok writes ∧
        ¬ Write.LeaveParents writes (afterAll ownParents) ⟨"t", "f", "t", "g", .noAction, .noAction⟩ := by
  have regular : ∀ s ∈ ownParents, s.Regular := by decide +kernel
  have before : (afterAll ownParents).Satisfied ⟨"t", "f", "t", "g", .noAction, .noAction⟩ := by
    decide +kernel
  have succeeds : ((afterAll ownParents).execute (.update .ownParentLost)).1 = .ok () :=
    Checked.toOption_eq_some.1 (by decide +kernel)
  have dangling : ¬ ((afterAll ownParents).execute (.update .ownParentLost)).2.Satisfied
      ⟨"t", "f", "t", "g", .noAction, .noAction⟩ := by decide +kernel
  have mem : ⟨"t", "f", "t", "g", .noAction, .noAction⟩ ∈ (afterAll ownParents).references := by
    decide +kernel
  have reached : (afterAll ownParents).Reached fun _ s => s.Regular :=
    reached_afterAll fun s mem _ => regular s mem
  have outcome : ∀ result : Checked Unit × Database, result.1 = .ok () → result = (.ok (), result.2) :=
    fun _ ok => Prod.ext ok rfl
  obtain ⟨writes, planned, _, _, kept, _⟩ := reached.update_both_ends (s := .ownParentLost) mem ⟨rfl, rfl⟩
    rfl rfl before (outcome _ succeeds)
  exact ⟨before, succeeds, dangling, writes, planned, fun leave => dangling (kept.2 leave)⟩

end RelEngine
