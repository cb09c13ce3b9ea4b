/-!
Field names with an optional qualifier.
-/
namespace RelEngine

/-- A field name, qualified by a table name or an alias if there is one. -/
structure FieldName where
  qualifier : Option String
  field : String
  deriving DecidableEq

namespace FieldName

/-- Splits a name at its first dot. Without a dot, or with nothing before or after it, the whole name
is the field. -/
def parse (name : String) : FieldName :=
  let qualifier := name.toList.takeWhile (· != '.')
  let field := (name.toList.dropWhile (· != '.')).drop 1
  if qualifier.isEmpty || field.isEmpty then ⟨none, name⟩
  else ⟨some (String.ofList qualifier), String.ofList field⟩

end FieldName

end RelEngine
