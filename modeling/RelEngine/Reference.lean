/-!
Foreign keys: fields whose values have to occur in a field of another table, or of the same one.
-/
namespace RelEngine

/-- What a reference asks for when a row that is referred to changes. Only `noAction` is enforced; the
others are recorded and let every change pass. -/
inductive ReferentialAction where
  | noAction
  | cascade
  | setNull
  | setDefault
  deriving DecidableEq

inductive RowChange where
  | update
  | delete
  deriving DecidableEq

/-- The child's field refers to the parent's. -/
structure Reference where
  childTable : String
  childField : String
  parentTable : String
  parentField : String
  onDelete : ReferentialAction
  onUpdate : ReferentialAction
  deriving DecidableEq

namespace Reference

def onChange (r : Reference) : RowChange → ReferentialAction
  | .update => r.onUpdate
  | .delete => r.onDelete

/-- Whether a parent row may not be changed while a child refers to it. -/
def blocks (r : Reference) (change : RowChange) : Bool := r.onChange change = .noAction

def hasParent (r : Reference) (table field : String) : Bool :=
  r.parentTable == table && r.parentField == field

def hasChild (r : Reference) (table field : String) : Bool :=
  r.childTable == table && r.childField == field

end Reference

end RelEngine
