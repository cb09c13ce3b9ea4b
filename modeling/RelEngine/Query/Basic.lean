import RelEngine.Tree

/-!
Queries: what to select, from which sources, and which rows.
-/
namespace RelEngine

inductive SelectItem where
  /-- Every field of every source and joined table. -/
  | all
  | field (name : String)
  | computed (value : Tree) (name : String)

inductive JoinType where
  | inner
  | left
  | right
  deriving DecidableEq

structure JoinClause where
  kind : JoinType
  table : String
  alias? : Option String
  on : Tree

inductive FromItem (Q : Type) where
  | table (name : String) (alias? : Option String)
  | query (q : Q)

structure Query where
  items : List SelectItem
  sources : List (FromItem Query)
  joins : List JoinClause
  filter : Option Tree

end RelEngine
