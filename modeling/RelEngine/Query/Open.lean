import RelEngine.Cursor
import RelEngine.Query.Scope

/-!
Opening a query: checking its names and building the cursor that reads its rows.

The sources form a product from the left. An inner join filters the product of the joined table with
what is there so far, an outer join wraps both. Computed fields are added next, then the filter, and
last all fields that are not reported are hidden.
-/
namespace RelEngine

/-- The rows of a query: a cursor and the names of the reported fields in order. -/
structure OpenQuery where
  fields : List String
  cursor : Cursor

namespace Query

variable (db : Database)

/-- The product of the sources, of which there may be none. -/
def joinSources : List Cursor → Checked (Option Cursor)
  | [] => .ok none
  | first :: rest => do
    return some (← rest.foldlM (fun left right => left.product right db.stores) first)

/-- The rows so far, joined with one more table. The predicate is bound against the join. -/
def addJoin (rows : Option Cursor) (clause : JoinClause) : Checked Cursor := do
  let some left := rows | throw (.invalidQuery (.joinWithoutSource clause.table))
  let joined := Cursor.table (← db.view clause.table clause.alias?)
  let predicate := fun (rows : Cursor) => clause.on.bind rows.fieldCheck
  match clause.kind with
  | .inner =>
    let product ← joined.product left db.stores
    return product.select (← predicate product)
  | .left => left.leftJoin joined predicate db.stores
  | .right => left.rightJoin joined predicate db.stores

/-- The rows so far with the computed field of an item, if it has one. -/
def addComputed (rows : Option Cursor) : SelectItem → Checked (Option Cursor)
  | .computed value name =>
    match rows with
    | some child => return some (child.extend (← value.bind child.fieldCheck) name)
    | none => return some (Cursor.single (← value.bind .forbidden) name)
  | _ => .ok rows

def build (sources : List Cursor) (items : List SelectItem) (joins : List JoinClause)
    (filter : Option Tree) : Checked Cursor := do
  let rows ← joinSources db sources
  let rows ← joins.foldlM (fun rows clause => return some (← addJoin db rows clause)) rows
  let rows ← items.foldlM addComputed rows
  let some child := rows | throw (.invalidQuery .noSource)
  match filter with
  | none => return child
  | some tree => return child.select (← tree.bind child.fieldCheck)

def checkNames (scope : Scope) (items : List SelectItem) (joins : List JoinClause)
    (filter : Option Tree) : Checked Scope := do
  let scope ← joins.foldlM (fun (scope : Scope) clause => do
    let scope ← scope.addTable db clause.table clause.alias?
    scope.checkTree clause.on
    return scope) scope
  let scope ← items.foldlM (fun (scope : Scope) item =>
    match item with
    | .computed value name => do
      scope.checkTree value
      scope.addComputed name
    | _ => .ok scope) scope
  items.forM fun
    | .field name => scope.check name
    | _ => .ok ()
  filter.forM scope.checkTree
  return scope

mutual

/-- Opens a query. Its cursor stands before the first row. -/
def openOn : Query → Checked OpenQuery
  | ⟨items, sources, joins, filter⟩ => do
    if items.isEmpty then throw (.invalidQuery .emptySelectList)
    let (scope, cursors) ← openSources sources .empty
    let scope ← checkNames db scope items joins filter
    let fields := scope.outputNames items
    let rows ← build db cursors items joins filter
    return ⟨fields, ← (rows.project fields).rewound db.stores⟩

/-- Opens sources from left to right and adds them to the names in sight. -/
def openSources : List (FromItem Query) → Scope → Checked (Scope × List Cursor)
  | [], scope => .ok (scope, [])
  | source :: rest, scope => do
    let (scope, cursor) ← openSource source scope
    let (scope, cursors) ← openSources rest scope
    return (scope, cursor :: cursors)

def openSource : FromItem Query → Scope → Checked (Scope × Cursor)
  | .table name alias?, scope => do
    let scope ← scope.addTable db name alias?
    return (scope, Cursor.table (← db.view name alias?))
  | .query q, scope => do
    let result ← openOn q
    return (scope.addQuery result.fields, result.cursor)

end

end Query

def Database.query (db : Database) (q : Query) : Checked OpenQuery := q.openOn db

end RelEngine
