import RelEngine.Database
import RelEngine.Scan.Basic
import RelEngine.Tree

/-!
The statements that change a database. Their expressions are not bound yet; that is part of running
them.
-/
namespace RelEngine

/-- A reference as a table declares it for one of its fields. -/
structure ForeignKey where
  field : String
  parentTable : String
  parentField : String
  onDelete : ReferentialAction
  onUpdate : ReferentialAction

structure CreateTable where
  table : String
  columns : List Column
  foreignKeys : List ForeignKey

structure DropTable where
  table : String

structure Insert where
  table : String
  /-- The fields that get values; all of them if none are listed. -/
  fields : Option (List String)
  rows : List (List Tree)

structure Update where
  table : String
  assignments : List (String × Tree)
  filter : Option Tree

structure Delete where
  table : String
  filter : Option Tree

inductive Statement where
  | createTable (s : CreateTable)
  | dropTable (s : DropTable)
  | insert (s : Insert)
  | update (s : Update)
  | delete (s : Delete)

/-- A change of the database. What was done before an error stays done. -/
abbrev Change (α : Type) := Move Database α

end RelEngine
