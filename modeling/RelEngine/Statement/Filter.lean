import RelEngine.Plan.Eval
import RelEngine.Statement.Basic

/-!
The rows that an UPDATE or a DELETE is about.
-/
namespace RelEngine

namespace TableView

def fieldCheck (t : TableView) : FieldCheck := .among t.has

/-- Whether the row under `id` fulfils a condition. Without a condition every row does. -/
def accepts (t : TableView) (stores : Stores) (filter : Option Expr) (id : RowId) :
    Checked Bool :=
  match filter with
  | none => .ok true
  | some e => return (← e.eval stores (t.read stores (some id))).isTrue

end TableView

end RelEngine
