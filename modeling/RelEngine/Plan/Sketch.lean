import RelEngine.Cursor
import RelEngine.Database

/-!
Plans and expressions as a caller writes them: tables by name, and trees that are still to be bound.
Building resolves all of that against a database.
-/
namespace RelEngine

mutual

inductive ExprSketch where
  | const (value : Value)
  /-- A field that is looked up only when it is evaluated. -/
  | field (name : String)
  | compare (op : Comparison) (left right : ExprSketch)
  | connect (op : Connective) (left right : ExprSketch)
  | arith (op : ArithOp) (left right : ExprSketch)
  | not (operand : ExprSketch)
  | is (left right : ExprSketch)
  | exists (plan : PlanSketch)
  /-- A tree that is bound to the rows at hand. -/
  | bound (tree : Tree)

inductive PlanSketch where
  | table (name : String) (alias? : Option String)
  | product (left right : PlanSketch)
  | select (child : PlanSketch) (predicate : ExprSketch)
  | leftJoin (left right : PlanSketch) (predicate : ExprSketch)
  | rightJoin (left right : PlanSketch) (predicate : ExprSketch)
  | extend (child : PlanSketch) (value : ExprSketch) (name : String)
  | single (value : ExprSketch) (name : String)
  | project (child : PlanSketch) (fields : List String)

end

mutual

def ExprSketch.build : ExprSketch → Database → FieldCheck → Checked Expr
  | .const value, _, _ => .ok (.const value)
  | .field name, _, _ => .ok (.field name)
  | .compare op left right, db, check => do
    return .compare op (← left.build db check) (← right.build db check)
  | .connect op left right, db, check => do
    return .connect op (← left.build db check) (← right.build db check)
  | .arith op left right, db, check => do
    return .arith op (← left.build db check) (← right.build db check)
  | .not operand, db, check => do return .not (← operand.build db check)
  | .is left right, db, check => do
    return .is (← left.build db check) (← right.build db check)
  | .exists plan, db, _ => do return .exists (← plan.build db).plan
  | .bound tree, _, check => tree.bind check

def PlanSketch.build : PlanSketch → Database → Checked Cursor
  | .table name alias?, db => return Cursor.table (← db.view name alias?)
  | .product left right, db => do
    let left ← left.build db
    let right ← right.build db
    left.product right db.stores
  | .select child predicate, db => do
    let child ← child.build db
    return child.select (← predicate.build db child.fieldCheck)
  | .leftJoin left right predicate, db => do
    let left ← left.build db
    let right ← right.build db
    left.leftJoin right (fun rows => predicate.build db rows.fieldCheck) db.stores
  | .rightJoin left right predicate, db => do
    let left ← left.build db
    let right ← right.build db
    left.rightJoin right (fun rows => predicate.build db rows.fieldCheck) db.stores
  | .extend child value name, db => do
    let child ← child.build db
    return child.extend (← value.build db child.fieldCheck) name
  | .single value name, db => return Cursor.single (← value.build db .forbidden) name
  | .project child fields, db => return (← child.build db).project fields

end

/-- The cursor with a new predicate, made for the rows that it selects from or joins. Only selections
and joins have one. -/
def Cursor.withPredicate? (c : Cursor) (db : Database) (predicate : ExprSketch) :
    Option (Checked Cursor) :=
  match c with
  | ⟨.select child _, s⟩ => some do
    return ⟨.select child (← predicate.build db (.among child.has)), s⟩
  | ⟨.join outer inner old flipped, s⟩ => some do
    let check := FieldCheck.among (Plan.join outer inner old flipped).has
    return ⟨.join outer inner (← predicate.build db check) flipped, s⟩
  | _ => none

end RelEngine
