import RelEngine.Proofs.Scan.Moves
import RelEngine.Proofs.TableView
import RelEngine.Proofs.Tree.Faults
import RelEngine.Scan.Pairs
import RelEngine.Scan.Rows
import RelEngine.Scan.Views

/-!
Readers that find their fields: reading a field fails for its absence just when the reader does not have it,
and moving never fails for the absence of any.

Every way of building a reader keeps this, provided that its conditions and computed fields name only fields
of what they are evaluated on. It holds in all states, so also of a reader that goes on after an error.
-/
namespace RelEngine

/-- The error is not the lack of a field. -/
def Error.Other (x : Error) : Prop := ∀ name, x ≠ .fieldNotFound name

theorem Error.OfOperands.other {x : Error} (h : x.OfOperands) : x.Other := by
  intro name
  cases h with
  | mismatch => exact nofun
  | refused => exact nofun
  | divisionByZero => exact nofun

/-! ## Moves -/

namespace Move

variable {σ τ α β : Type} {errors : Error → Prop}

/-- Whatever the state, the move fails with no other errors. -/
def Raises (errors : Error → Prop) (m : Move σ α) : Prop :=
  ∀ s e, (m.runFrom s).1 = .error e → errors e

theorem raises_pure (a : α) : (pure a : Move σ α).Raises errors := nofun

theorem raises_get : (get : Move σ σ).Raises errors := nofun

theorem raises_set (t : σ) : (set t : Move σ PUnit).Raises errors := nofun

theorem raises_modify (f : σ → σ) : (modify f : Move σ PUnit).Raises errors := nofun

theorem raises_lift {c : Checked α} (h : ∀ e, c = .error e → errors e) :
    (liftM c : Move σ α).Raises errors := by
  intro s e bad
  rw [runFrom_lift] at bad
  exact h e bad

theorem Raises.bind {m : Move σ α} {f : α → Move σ β} (first : m.Raises errors)
    (rest : ∀ a, (f a).Raises errors) : (m >>= f).Raises errors := by
  intro s e bad
  rcases result : m.runFrom s with ⟨x | a, t⟩
  · rw [runFrom_bind_error result] at bad
    cases bad
    exact first s _ (congrArg Prod.fst result)
  · rw [runFrom_bind_ok result] at bad
    exact rest a t e bad

theorem Raises.ite {c : Prop} [Decidable c] {m m' : Move σ α} (yes : m.Raises errors)
    (no : m'.Raises errors) : (if c then m else m').Raises errors := by
  split
  · exact yes
  · exact no

theorem Raises.within {get : σ → τ} {put : τ → σ → σ} {m : Move τ α} (h : m.Raises errors) :
    (within get put m).Raises errors :=
  fun s e bad => h (get s) e bad

/-- The induction is on the number of rows that may be passed. -/
theorem Raises.seek {next : Move σ Bool} {accepts : σ → Checked Bool} (h : next.Raises errors)
    (asked : ∀ s e, accepts s = .error e → errors e) (fuel : Nat) :
    (seek next accepts fuel).Raises errors := by
  induction fuel with
  | zero => exact raises_pure false
  | succ fuel ih =>
    refine h.bind fun more => .ite ?_ (raises_pure false)
    refine raises_get.bind fun s => (raises_lift (asked s)).bind fun accepted => ?_
    exact .ite (raises_pure true) ih

end Move

/-! ## Readers -/

namespace Scan

variable {σ α β : Type}

/-- Reading a field fails for its absence just where the reader does not have it. -/
structure Resolves (scan : Scan σ) : Prop where
  found : ∀ stores s name e, scan.has name = true → scan.read stores s name = .error e → e.Other
  missing : ∀ stores s name, scan.has name = false →
    scan.read stores s name = .error (.fieldNotFound name)

structure Finds (scan : Scan σ) : Prop where
  found : ∀ stores s name e, scan.has name = true → scan.read stores s name = .error e → e.Other
  missing : ∀ stores s name, scan.has name = false →
    scan.read stores s name = .error (.fieldNotFound name)
  rewinds : ∀ stores, (scan.rewind stores).Raises Error.Other
  moves : ∀ stores, (scan.next stores).Raises Error.Other

theorem Finds.resolves {scan : Scan σ} (h : scan.Finds) : scan.Resolves := ⟨h.found, h.missing⟩

theorem other_of_eval {e : Expr} {named : String → Prop} (onRow : e.OnRow named) {stores : Stores}
    {row : String → Checked Value} (found : ∀ name x, named name → row name = .error x → x.Other)
    {x : Error} (bad : e.eval stores row = .error x) : x.Other := by
  rcases onRow.eval_eq_error bad with ⟨name, known, bad⟩ | operands
  · exact found name x known bad
  · exact operands.other

theorem other_of_condition {e : Expr} {named : String → Prop} (onRow : e.OnRow named)
    {stores : Stores} {row : String → Checked Value}
    (found : ∀ name x, named name → row name = .error x → x.Other) {x : Error}
    (bad : (do return (← e.eval stores row).isTrue : Checked Bool) = .error x) : x.Other := by
  rcases Checked.bind_eq_error.1 bad with bad | ⟨_, _, eq⟩
  · exact other_of_eval onRow found bad
  · cases eq

theorem resolves_table (t : TableView) : (table t).Resolves where
  found stores position name e has bad := by
    obtain ⟨field, resolved, isColumn⟩ := TableView.resolve_of_has has
    change t.read stores position.rowId? name = .error e at bad
    rw [TableView.read, resolved, Checked.ok_bind] at bad
    split at bad
    · obtain ⟨slot, isSlot⟩ := Schema.slot_of_has isColumn
      rw [Row.get, isSlot] at bad
      cases bad
    · cases bad
  missing stores position name hasNot := by
    change t.read stores position.rowId? name = _
    rw [TableView.read, TableView.resolve_of_not_has hasNot]
    rfl

theorem finds_table (t : TableView) : (table t).Finds where
  found := (resolves_table t).found
  missing := (resolves_table t).missing
  rewinds _ := Move.raises_set _
  moves _ := Move.raises_get.bind fun _ => (Move.raises_set _).bind fun _ => Move.raises_pure _

theorem resolves_single {value : Stores → Checked Value} {name : String}
    (found : ∀ stores e, value stores = .error e → e.Other) : (single value name).Resolves where
  found stores s field e has bad := by
    change (if field == name then value stores else .error (.fieldNotFound field)) = .error e at bad
    change (field == name) = true at has
    rw [if_pos has] at bad
    exact found stores e bad
  missing stores s field hasNot := by
    change (if field == name then value stores else .error (.fieldNotFound field)) = _
    change (field == name) = false at hasNot
    rw [hasNot]
    rfl

theorem finds_single {value : Stores → Checked Value} {name : String}
    (found : ∀ stores e, value stores = .error e → e.Other) : (single value name).Finds where
  found := (resolves_single found).found
  missing := (resolves_single found).missing
  rewinds _ := Move.raises_set _
  moves _ := Move.raises_get.bind fun _ => (Move.raises_set _).bind fun _ => Move.raises_pure _

section Views

variable {child : Scan σ}

/-- A selection reads as what it selects from, whatever its condition is. -/
theorem Resolves.select (h : child.Resolves) (accepts : Condition) : (child.select accepts).Resolves :=
  ⟨h.found, h.missing⟩

theorem Finds.select {accepts : Condition} (h : child.Finds)
    (asked : ∀ stores s e, accepts stores (child.read stores s) = .error e → e.Other) :
    (child.select accepts).Finds where
  found := h.found
  missing := h.missing
  rewinds := h.rewinds
  moves stores := (h.moves stores).seek (asked stores) _

theorem Resolves.extend {value : Stores → (String → Checked Value) → Checked Value} {name : String}
    (h : child.Resolves)
    (found : ∀ stores s e, value stores (child.read stores s) = .error e → e.Other) :
    (child.extend value name).Resolves where
  found stores s field e has bad := by
    change (field == name || child.has field) = true at has
    change (if field == name then value stores (child.read stores s) else child.read stores s field) =
      .error e at bad
    split at bad
    · exact found stores s e bad
    · next differ =>
      rw [Bool.not_eq_true] at differ
      rw [differ, Bool.false_or] at has
      exact h.found stores s field e has bad
  missing stores s field hasNot := by
    change (field == name || child.has field) = false at hasNot
    obtain ⟨differ, hasNot⟩ := Bool.or_eq_false_iff.1 hasNot
    change (if field == name then value stores (child.read stores s) else child.read stores s field) = _
    rw [differ]
    exact h.missing stores s field hasNot

theorem Finds.extend {value : Stores → (String → Checked Value) → Checked Value} {name : String}
    (h : child.Finds)
    (found : ∀ stores s e, value stores (child.read stores s) = .error e → e.Other) :
    (child.extend value name).Finds where
  found := (h.resolves.extend found).found
  missing := (h.resolves.extend found).missing
  rewinds := h.rewinds
  moves := h.moves

theorem Resolves.project (h : child.Resolves) (fields : List String) :
    (child.project fields).Resolves where
  found stores s field e has bad := by
    change (fields.contains field && child.has field) = true at has
    obtain ⟨shown, has⟩ := Bool.and_eq_true_iff.1 has
    change (if fields.contains field then child.read stores s field else _) = .error e at bad
    rw [if_pos shown] at bad
    exact h.found stores s field e has bad
  missing stores s field hasNot := by
    change (fields.contains field && child.has field) = false at hasNot
    change (if fields.contains field then child.read stores s field else _) = _
    cases shown : fields.contains field with
    | false => rfl
    | true =>
      rw [shown, Bool.true_and] at hasNot
      exact h.missing stores s field hasNot

theorem Finds.project (h : child.Finds) (fields : List String) : (child.project fields).Finds where
  found := (h.resolves.project fields).found
  missing := (h.resolves.project fields).missing
  rewinds := h.rewinds
  moves := h.moves

end Views

section Pairs

variable {left : Scan α} {right : Scan β}

theorem Resolves.product (hl : left.Resolves) (hr : right.Resolves) : (left.product right).Resolves where
  found stores s field e has bad := by
    change (left.has field || right.has field) = true at has
    change (if left.has field then left.read stores s.left field else right.read stores s.right field) =
      .error e at bad
    split at bad
    · next hasLeft => exact hl.found stores s.left field e hasLeft bad
    · next notLeft =>
      rw [Bool.not_eq_true] at notLeft
      rw [notLeft, Bool.false_or] at has
      exact hr.found stores s.right field e has bad
  missing stores s field hasNot := by
    change (left.has field || right.has field) = false at hasNot
    obtain ⟨notLeft, notRight⟩ := Bool.or_eq_false_iff.1 hasNot
    change (if left.has field then left.read stores s.left field else right.read stores s.right field) = _
    rw [notLeft]
    exact hr.missing stores s.right field notRight

theorem Finds.product (hl : left.Finds) (hr : right.Finds) : (left.product right).Finds where
  found := (hl.resolves.product hr.resolves).found
  missing := (hl.resolves.product hr.resolves).missing
  rewinds stores := by
    refine (Move.Raises.within (hl.rewinds stores)).bind fun _ => ?_
    refine (Move.Raises.within (hl.moves stores)).bind fun _ => ?_
    exact (Move.raises_modify _).bind fun _ => Move.Raises.within (hr.rewinds stores)
  moves stores := by
    refine Move.raises_get.bind fun s => ?_
    split
    · exact Move.raises_pure _
    · refine (Move.Raises.within (hr.moves stores)).bind fun more => ?_
      split
      · exact Move.raises_pure _
      · refine (Move.Raises.within (hr.rewinds stores)).bind fun _ => ?_
        refine (Move.Raises.within (hl.moves stores)).bind fun leftOnRow => ?_
        split
        · refine (Move.Raises.within (hr.moves stores)).bind fun rightOnRow => ?_
          exact (Move.raises_modify _).bind fun _ => Move.raises_pure _
        · exact (Move.raises_modify _).bind fun _ => Move.raises_pure _

end Pairs

/-! ## Joins -/

namespace Join

variable {j : Join α β}

theorem has_of_isInner {field : String} (h : j.isInner field = true) : j.inner.has field = true := by
  unfold Join.isInner readsInner at h
  split at h
  · exact h
  · exact (Bool.and_eq_true_iff.1 h).2

/-- What is not read from the inner side is a field of the outer side, if it is a field at all. -/
theorem has_of_isOuter {field : String} (has : j.scan.has field = true) (h : ¬ j.isInner field = true) :
    j.outer.has field = true := by
  change (j.outer.has field || j.inner.has field) = true at has
  unfold Join.isInner readsInner at h
  split at h
  · exact (Bool.or_eq_true_iff.1 has).resolve_right h
  · cases isOuter : j.outer.has field with
    | true => rfl
    | false =>
      rw [isOuter, Bool.false_or] at has
      rw [isOuter, has] at h
      exact absurd rfl h

theorem readPair_found (ho : j.outer.Resolves) (hi : j.inner.Resolves) {stores : Stores}
    {s : JoinState α β} {field : String} {e : Error} (has : j.scan.has field = true)
    (bad : j.readPair stores s field = .error e) : e.Other := by
  unfold readPair at bad
  split at bad
  · next isInner => exact hi.found stores s.inner field e (has_of_isInner isInner) bad
  · next isOuter => exact ho.found stores s.outer field e (has_of_isOuter has isOuter) bad

theorem advanceOuter_raises (ho : j.outer.Finds) (hi : j.inner.Finds) (stores : Stores) :
    (j.advanceOuter stores).Raises Error.Other := by
  refine (Move.Raises.within (ho.moves stores)).bind fun outerOnRow => ?_
  refine (Move.raises_modify _).bind fun _ => ?_
  exact (Move.Raises.within (hi.rewinds stores)).bind fun _ => Move.raises_pure _

theorem findMatch_raises (hi : j.inner.Finds) {stores : Stores}
    (asked : ∀ s e, j.accepts stores (j.readPair stores s) = .error e → e.Other) :
    (j.findMatch stores).Raises Error.Other := by
  refine ((Move.Raises.within (hi.moves stores)).seek asked _).bind fun found => ?_
  split
  · exact (Move.raises_modify _).bind fun _ => Move.raises_pure _
  · exact Move.raises_pure _

/-- A join reads a field that it has from the side that has it, whatever its condition is. -/
theorem resolves (ho : j.outer.Resolves) (hi : j.inner.Resolves) : j.scan.Resolves where
  found stores s field e has bad := by
    change (if j.isInner field && s.innerNull then .ok none else j.readPair stores s field) =
      .error e at bad
    split at bad
    · cases bad
    · exact readPair_found ho hi has bad
  missing stores s field hasNot := by
    change (j.outer.has field || j.inner.has field) = false at hasNot
    obtain ⟨notOuter, notInner⟩ := Bool.or_eq_false_iff.1 hasNot
    have isOuter : j.isInner field = false := by
      unfold Join.isInner readsInner
      rw [notInner, Bool.and_false, ite_self]
    change (if j.isInner field && s.innerNull then .ok none else j.readPair stores s field) = _
    rw [isOuter, readPair, isOuter]
    exact ho.missing stores s.outer field notOuter

theorem finds (ho : j.outer.Finds) (hi : j.inner.Finds)
    (asked : ∀ stores s e, j.accepts stores (j.readPair stores s) = .error e → e.Other) :
    j.scan.Finds where
  found := (resolves ho.resolves hi.resolves).found
  missing := (resolves ho.resolves hi.resolves).missing
  rewinds stores := by
    refine (Move.Raises.within (ho.rewinds stores)).bind fun _ => ?_
    refine (Move.Raises.within (ho.moves stores)).bind fun outerOnRow => ?_
    refine (Move.raises_modify _).bind fun _ => ?_
    exact (Move.Raises.within (hi.rewinds stores)).bind fun _ => Move.raises_modify _
  moves stores := by
    have advances := advanceOuter_raises ho hi stores
    have finds := findMatch_raises hi (asked stores)
    have shows : (do
        modify ({ · with innerNull := true })
        return true : Move (JoinState α β) Bool).Raises Error.Other :=
      (Move.raises_modify _).bind fun _ => Move.raises_pure _
    have follows : (do
        if ← j.findMatch stores then return true
        if (← get).outerMatched then
          if !(← j.advanceOuter stores) then return false
          if ← j.findMatch stores then return true
        modify ({ · with innerNull := true })
        return true : Move (JoinState α β) Bool).Raises Error.Other := by
      refine finds.bind fun found => .ite (Move.raises_pure _) ?_
      refine Move.raises_get.bind fun s => .ite ?_ shows
      refine advances.bind fun onRow => .ite (Move.raises_pure _) ?_
      exact finds.bind fun found => .ite (Move.raises_pure _) shows
    refine Move.raises_get.bind fun s => .ite (Move.raises_pure _) ?_
    refine Move.raises_get.bind fun s => .ite ?_ follows
    refine (Move.raises_modify _).bind fun _ => ?_
    exact advances.bind fun onRow => .ite (Move.raises_pure _) follows

end Join

end Scan

end RelEngine
