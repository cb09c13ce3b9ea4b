import RelEngine.Database
import RelEngine.Query.Basic

/-!
The names in sight of a query. They are checked before anything is read, so a query with an unknown or
ambiguous name is refused whatever the tables hold.
-/
namespace RelEngine

/-- A source with its fields. A query in place of a table has no qualifier and shows its output names
as they are. -/
structure NameSource where
  qualifier : Option String
  fields : List String

/-- The names of a source in a selection of everything. -/
def NameSource.outputNames (e : NameSource) : List String :=
  match e.qualifier with
  | some qualifier => e.fields.map fun field => qualifier ++ "." ++ field
  | none => e.fields

structure Scope where
  entries : List NameSource
  computed : List String

namespace Scope

def empty : Scope := ⟨[], []⟩

/-- Adds a table. Its qualifier must be free, and an alias must not be another table's name. -/
def addTable (scope : Scope) (db : Database) (name : String) (alias? : Option String) :
    Checked Scope := do
  let schema ← db.schema name
  if let some other := alias?.filter fun a => a != name && db.has a then
    throw (.aliasCollision other)
  let qualifier := alias?.getD name
  if scope.entries.any (·.qualifier == some qualifier) then throw (.aliasCollision qualifier)
  return { scope with entries := scope.entries ++ [⟨some qualifier, schema.names⟩] }

def addQuery (scope : Scope) (fields : List String) : Scope :=
  { scope with entries := scope.entries ++ [⟨none, fields⟩] }

/-- How many fields in sight have exactly this name. A name with a dot is no bare field of a table. -/
def occurrences (scope : Scope) (name : String) : Nat :=
  (scope.entries.filter fun e =>
    (e.qualifier.isNone || !name.toList.contains '.') && e.fields.contains name).length +
  scope.computed.count name

/-- Adds a computed field under a name that is still free. -/
def addComputed (scope : Scope) (name : String) : Checked Scope :=
  if 0 < scope.occurrences name then .error (.ambiguousField name)
  else .ok { scope with computed := scope.computed ++ [name] }

/-- Accepts a name that stands for one field. A qualified name is looked up in the source that it
names, unless a query's output or a computed field is called that. -/
def check (scope : Scope) : FieldCheck := fun name =>
  match FieldName.parse name, scope.occurrences name with
  | ⟨some table, field⟩, 0 =>
    match scope.entries.find? (·.qualifier == some table) with
    | none => .error (.unknownAlias table)
    | some e => if e.fields.contains field then .ok () else .error (.fieldNotFound name)
  | ⟨some _, _⟩, _ => .ok ()
  | ⟨none, _⟩, 0 => .error (.fieldNotFound name)
  | ⟨none, _⟩, 1 => .ok ()
  | ⟨none, _⟩, _ => .error (.ambiguousField name)

mutual

def checkTree (scope : Scope) : Tree → Checked Unit
  | .const _ => .ok ()
  | .field name => scope.check name
  | .apply _ operands => scope.checkTrees operands
  | .negate operand => scope.checkTree operand
  | .not operand => scope.checkTree operand

def checkTrees (scope : Scope) : List Tree → Checked Unit
  | [] => .ok ()
  | t :: ts => do
    scope.checkTree t
    scope.checkTrees ts

end

def outputNames (scope : Scope) (items : List SelectItem) : List String :=
  items.flatMap fun
    | .all => scope.entries.flatMap NameSource.outputNames
    | .field name => [name]
    | .computed _ name => [name]

end Scope

end RelEngine
