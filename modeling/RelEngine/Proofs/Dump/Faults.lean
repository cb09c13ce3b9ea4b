import RelEngine.Proofs.Dump.Loading

/-!
The errors of a loading. Whatever stands in the files, one of them is missing or one of them is corrupt;
nothing that a statement or a query can report comes up.
-/
namespace RelEngine

open Dump (loadRows readTable readRow readReference readColumn readColumns)

variable {files : Files} {name : String} {rowSize : Nat} {bytes : Bytes}

/-- What can be wrong with a dump: a file that is not there, or what stands in one. -/
inductive Error.OfDump : Error → Prop where
  | missing (file : String) : OfDump (.file (.missing file))
  | corrupt (fault : DumpFault) : OfDump (.corruptDump fault)

namespace Read

variable {α β : Type} {m : Read α} {f : α → Read β}

/-- A read that fails blames the dump. -/
def Blames (read : Read α) : Prop := ∀ r e, StateT.run read r = .error e → e.OfDump

theorem blames_pure (a : α) : Blames (pure a) := by
  intro r e failed
  cases failed

theorem blames_lift {c : Checked α} (h : ∀ e, c = .error e → e.OfDump) : Blames (liftM c) := by
  intro r e failed
  cases c with
  | error e' =>
    cases failed
    exact h e rfl
  | ok a => cases failed

theorem blames_corrupt (fault : DumpFault) : Blames (corrupt fault : Read α) := by
  intro r e failed
  cases failed
  exact .corrupt fault

theorem Blames.bind (first : m.Blames) (rest : ∀ a, (f a).Blames) : (m >>= f).Blames := by
  intro r e failed
  rw [StateT.run_bind] at failed
  rcases Checked.bind_eq_error.1 failed with failed | ⟨⟨a, r'⟩, _, failed⟩
  · exact first r e failed
  · exact rest a r' e failed

theorem blames_take (n : Nat) : (take n).Blames := by
  intro r e failed
  change StateT.run (if r.rest.length < n then _ else _) r = _ at failed
  split at failed
  · exact blames_corrupt _ r e failed
  · cases failed

theorem blames_number (count : Nat) : (number count).Blames :=
  (blames_take count).bind fun _ => blames_pure _

theorem blames_text : text.Blames := by
  intro r e failed
  change StateT.run (if r.rest.length ≤ (r.rest.takeWhile (· != 0)).length then _ else _) r = _ at failed
  split at failed
  · exact blames_corrupt _ r e failed
  · cases isText : Utf8.decode? (r.rest.takeWhile (· != 0)) with
    | none =>
      rw [isText] at failed
      exact blames_corrupt _ r e failed
    | some s =>
      rw [isText] at failed
      cases failed

theorem blames_untilEnd {step : β → Read β} (h : ∀ b, (step b).Blames) (b : β) :
    (untilEnd step b).Blames := by
  have within : ∀ (fuel : Nat) (b : β), (untilEndWithin step fuel b).Blames := by
    intro fuel
    induction fuel with
    | zero => exact fun b => blames_pure b
    | succ fuel ih =>
      intro b r e failed
      change StateT.run (if r.rest.isEmpty then _ else step b >>= fun b' => untilEndWithin step fuel b') r
        = _ at failed
      split at failed
      · exact blames_pure b r e failed
      · exact (h b).bind ih r e failed
  exact fun r e failed => within _ b r e failed

theorem Blames.run (h : m.Blames) {file : String} {e : Error} (failed : m.run file bytes = .error e) :
    e.OfDump := by
  rcases Checked.bind_eq_error.1 failed with failed | ⟨next, _, failed⟩
  · exact h _ e failed
  · cases failed

end Read

namespace Dump

theorem ofDump_content {e : Error} (failed : files.content name = .error e) : e.OfDump := by
  rw [Files.content] at failed
  split at failed
  · cases failed
  · cases failed
    exact .missing name

theorem blames_readRow (rows : RowStore) : (readRow rowSize rows).Blames :=
  (Read.blames_number 8).bind fun _ => (Read.blames_take rowSize).bind fun _ => Read.blames_pure _

theorem ofDump_loadRows {e : Error} (failed : loadRows files name rowSize = .error e) : e.OfDump := by
  rw [loadRows] at failed
  split at failed
  · rcases Checked.bind_eq_error.1 failed with failed | ⟨bytes, _, failed⟩
    · exact ofDump_content failed
    · exact (Read.blames_untilEnd blames_readRow .empty).run failed
  · cases failed
    exact .corrupt _

theorem blames_readColumn : readColumn.Blames := by
  refine Read.blames_text.bind fun name => (Read.blames_number 1).bind fun nullable =>
    (Read.blames_number 1).bind fun unique => (Read.blames_number 1).bind fun tag => ?_
  cases DataType.ofTag? tag with
  | none => exact Read.blames_corrupt _
  | some type => exact (Read.blames_number 4).bind fun _ => Read.blames_pure _

theorem blames_readColumns (count : Nat) (schema : Schema) : (readColumns count schema).Blames := by
  induction count generalizing schema with
  | zero => exact Read.blames_pure schema
  | succ count ih => exact blames_readColumn.bind fun c => ih (schema.add c)

theorem blames_readTable (files : Files) (db : Database) : (readTable files db).Blames := by
  rw [readTable_eq]
  refine Read.blames_text.bind fun name => (Read.blames_number 4).bind fun count =>
    (blames_readColumns count .empty).bind fun schema => Read.blames_lift fun e failed => ?_
  cases isFree : db.tables.find? name with
  | none =>
    rw [Database.loadTable_eq isFree] at failed
    cases isRows : loadRows files name schema.rowSize with
    | error e' =>
      rw [isRows] at failed
      cases failed
      exact ofDump_loadRows isRows
    | ok rows =>
      rw [isRows] at failed
      cases failed
  | some t =>
    have taken : db.addTable? name schema = none := by
      rw [Database.addTable?_eq, Database.has, SortedMap.contains, isFree]
      rfl
    rw [Database.loadTable, taken] at failed
    cases failed
    exact .corrupt _

theorem blames_readReference (db : Database) : (readReference db).Blames :=
  Read.blames_text.bind fun _ => Read.blames_text.bind fun _ => Read.blames_text.bind fun _ =>
    Read.blames_text.bind fun _ => Read.blames_pure _

end Dump

theorem Database.ofDump_load {stores : Stores} {e : Error} (failed : load files stores = .error e) :
    e.OfDump := by
  rcases Checked.bind_eq_error.1 failed with failed | ⟨bytes, _, failed⟩
  · exact Dump.ofDump_content failed
  rcases Checked.bind_eq_error.1 failed with failed | ⟨db, _, failed⟩
  · exact (Read.blames_untilEnd (Dump.blames_readTable files) _).run failed
  rcases Checked.bind_eq_error.1 failed with failed | ⟨bytes', _, failed⟩
  · exact Dump.ofDump_content failed
  · exact (Read.blames_untilEnd Dump.blames_readReference db).run failed

end RelEngine
