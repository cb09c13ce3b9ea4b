import RelEngine.Database
import RelEngine.Query.Basic
import RelEngine.Relation

/-!
The relation that a query stands for: the product of its sources, joined with one table after the
other, extended by the computed columns, restricted by the filter, and cut down to the select list.

This is what opened queries are held to. Names are taken as they come; that they are unambiguous is
checked when a query is opened and not here. Only an unknown table leaves a query without a relation.
-/
namespace RelEngine

/-- How a column is called in the result of a query. -/
def FieldName.outputName (column : FieldName) : String :=
  match column.qualifier with
  | some qualifier => qualifier ++ "." ++ column.field
  | none => column.field

namespace Query

variable (db : Database)

def tableRelation (name : String) (alias? : Option String) : Checked Relation :=
  return .ofTable (← db.view name alias?) db.stores

/-- The relation so far, joined with one more table. -/
def joinRelation (left : Relation) (clause : JoinClause) : Checked Relation := do
  let right ← tableRelation db clause.table clause.alias?
  match clause.kind with
  | .inner => return left.innerJoin right clause.on
  | .left => return left.leftJoin right clause.on
  | .right => return left.rightJoin right clause.on

def extendRelation (r : Relation) : SelectItem → Relation
  | .computed value name => r.extend value name
  | _ => r

def restrictRelation (r : Relation) : Option Tree → Relation
  | some condition => r.restrict condition
  | none => r

/-- The cells of the select list in a row. The first `width` columns are those of the sources and the
joined tables. -/
def selectedCells (items : List SelectItem) (heading : List FieldName) (width : Nat)
    (row : List (Checked Value)) : List (Checked Value) :=
  items.flatMap fun
    | .all => row.take width
    | .field name => [Relation.lookup heading row name]
    | .computed _ name => [Relation.lookup heading row name]

def outputHeading (items : List SelectItem) (heading : List FieldName) (width : Nat) :
    List FieldName :=
  items.flatMap fun
    | .all => (heading.take width).map fun column => ⟨none, column.outputName⟩
    | .field name => [⟨none, name⟩]
    | .computed _ name => [⟨none, name⟩]

/-- What follows the sources: joins, computed columns, filter and select list. -/
def relationOver (sources : Relation) (items : List SelectItem) (joins : List JoinClause)
    (filter : Option Tree) : Checked Relation := do
  let joined ← joins.foldlM (joinRelation db) sources
  let rows := restrictRelation (items.foldl extendRelation joined) filter
  let width := joined.heading.length
  return {
    heading := outputHeading items rows.heading width
    rows := rows.rows.map (selectedCells items rows.heading width)
    log := rows.log }

mutual

def relation : Query → Checked Relation
  | ⟨items, sources, joins, filter⟩ => do
    relationOver db (← sourcesRelation sources) items joins filter

def sourcesRelation : List (FromItem Query) → Checked Relation
  | [] => .ok .unit
  | source :: rest => do
    let left ← sourceRelation source
    return left.product (← sourcesRelation rest)

def sourceRelation : FromItem Query → Checked Relation
  | .table name alias? => tableRelation db name alias?
  | .query q => relation q

end

end Query

end RelEngine
