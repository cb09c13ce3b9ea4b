import RelEngine.Scan.Basic

/-!
Readers over one other reader: with rows left out, with a field added, with fields hidden. All three
stand where the other one stands.
-/
namespace RelEngine.Scan

variable {σ : Type}

def select (child : Scan σ) (accepts : Condition) : Scan σ where
  start := child.start
  rowBound := child.rowBound
  has := child.has
  read := child.read
  rewind := child.rewind
  next stores :=
    seek (child.next stores) (fun s => accepts stores (child.read stores s))
      (child.rowBound stores + 1)

/-- The rows with a computed field, which hides a field of the same name. -/
def extend (child : Scan σ) (value : Stores → (String → Checked Value) → Checked Value)
    (name : String) : Scan σ where
  start := child.start
  rowBound := child.rowBound
  has field := field == name || child.has field
  read stores s field :=
    if field == name then value stores (child.read stores s) else child.read stores s field
  rewind := child.rewind
  next := child.next

def project (child : Scan σ) (fields : List String) : Scan σ where
  start := child.start
  rowBound := child.rowBound
  has field := fields.contains field && child.has field
  read stores s field :=
    if fields.contains field then child.read stores s field else .error (.fieldNotFound field)
  rewind := child.rewind
  next := child.next

end RelEngine.Scan
