import RelEngine.Plan.Eval

/-!
Changing rows through a reader. A field is written where reading finds it; rows are added to and
removed from the one table below the reader, and nothing happens where there are two.
-/
namespace RelEngine.Plan

/-- Writes a field of the current row. Writing a computed field has no effect. -/
def write : (plan : Plan) → Stores → plan.State → String → Value → Checked Stores
  | .table view, stores, position, field, value =>
    view.write stores (Position.rowId? position) field value
  | .product left right, stores, (s : ProductState left.State right.State), field, value =>
    if left.has field then left.write stores s.left field value
    else if right.has field then right.write stores s.right field value
    else .error (.fieldNotFound field)
  | .select child _, stores, s, field, value => child.write stores s field value
  | .join outer inner _ flipped, stores, (s : JoinState outer.State inner.State), field, value =>
    if Scan.readsInner flipped (outer.has field) (inner.has field) then
      if s.innerNull then .error .noCurrentRow else inner.write stores s.inner field value
    else outer.write stores s.outer field value
  | .extend child _ name, stores, s, field, value =>
    if field == name then .ok stores else child.write stores s field value
  | .single _ name, stores, _, field, _ =>
    if field == name then .ok stores else .error (.fieldNotFound field)
  | .project child fields, stores, s, field, value =>
    if fields.contains field then child.write stores s field value
    else .error (.fieldNotFound field)

/-- Adds a row of NULLs and goes there. -/
def insert : (plan : Plan) → Stores → plan.State → Stores × plan.State
  | .table view, stores, _ =>
    let (stores, id) := view.addBlank stores
    (stores, Position.onRow id)
  | .select child _, stores, s => child.insert stores s
  | .extend child _ _, stores, s => child.insert stores s
  | .project child _, stores, s => child.insert stores s
  | .product _ _, stores, s => (stores, s)
  | .join _ _ _ _, stores, s => (stores, s)
  | .single _ _, stores, s => (stores, s)

/-- Removes the current row. The next row is then the one after it. -/
def remove : (plan : Plan) → Stores → plan.State → Checked (Stores × plan.State)
  | .table view, stores, (position : Position) =>
    match position with
    | .onRow id => .ok (view.remove stores id, Position.afterRemoved id)
    | _ => .error .noCurrentRow
  | .select child _, stores, s => child.remove stores s
  | .extend child _ _, stores, s => child.remove stores s
  | .project child _, stores, s => child.remove stores s
  | .product _ _, stores, s => .ok (stores, s)
  | .join _ _ _ _, stores, s => .ok (stores, s)
  | .single _ _, stores, s => .ok (stores, s)

/-- Gives up the place. No rows follow until the reader goes back to the start. -/
def close : (plan : Plan) → plan.State → plan.State
  | .table _, _ => Position.exhausted
  | .product left right, (s : ProductState left.State right.State) =>
    ProductState.mk (left.close s.left) (right.close s.right) false
  | .select child _, s => child.close s
  | .join outer inner _ _, (s : JoinState outer.State inner.State) =>
    { s with outer := outer.close s.outer, inner := inner.close s.inner, outerOnRow := false }
  | .extend child _ _, s => child.close s
  | .single _ _, _ => false
  | .project child _, s => child.close s

end RelEngine.Plan
