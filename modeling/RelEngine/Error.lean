import RelEngine.Operator
import RelEngine.Text.Quoted
import RelEngine.Value.Basic

/-!
Everything that can go wrong, as causes with their data. The wording of all of them is in
`Error.message`.
-/
namespace RelEngine

inductive Error.Kind where
  | schema
  | type
  | constraint
  | eval
  | io
  deriving DecidableEq

inductive QueryFault where
  | emptySelectList
  | noSource
  | joinWithoutSource (table : String)
  | wrongArity (expected found : Nat)
  deriving DecidableEq

inductive OperandFault where
  | tooFew (op : Operator) (count : Nat)
  | notTwo (op : Operator) (count : Nat)
  deriving DecidableEq

inductive FileFault where
  | missing (file : String)
  | nameTooLong (file : String)
  | unusableName (table : String)
  deriving DecidableEq

inductive DumpFault where
  | lengthTooLarge (length : Nat)
  | rowIdTooLarge (id : Nat)
  | unknownTag (tag : Nat)
  | tableListedTwice (table : String)
  | invalidTableName (table : String)
  | unexpectedEnd (file : String) (position : Nat)
  | unterminatedString (file : String) (position : Nat)
  | invalidText (file : String)
  deriving DecidableEq

inductive Error where
  | unknownTable (table : String)
  | fieldNotFound (field : String)
  | tableExists (table : String)
  | duplicateField (field : String)
  | ambiguousField (field : String)
  | unknownAlias (name : String)
  | aliasCollision (name : String)
  | invalidQuery (fault : QueryFault)
  | typeMismatch (expected found : DataType)
  | stringTooLong (field : String) (capacity length : Nat)
  | outOfRange (field : String) (expected : DataType) (value : Scalar)
  | nulInString (field : String)
  | notNullViolation (field : String)
  | missingField (field : String)
  | uniqueViolation (table field : String)
  | foreignKeyViolation (table field : String)
  | dependentRows (table : String)
  | invalidOperation (op : ArithOp) (left right : DataType)
  | divisionByZero
  | fieldAccessForbidden (field : String)
  | invalidExpression (fault : OperandFault)
  | noCurrentRow
  | file (fault : FileFault)
  | corruptDump (fault : DumpFault)
  deriving DecidableEq

def QueryFault.message : QueryFault → String
  | .emptySelectList => "empty select list"
  | .noSource => "nothing to select from"
  | .joinWithoutSource table => s!"JOIN {table} without a FROM source"
  | .wrongArity expected found => s!"expected {expected} values per row, got {found}"

def OperandFault.message : OperandFault → String
  | .tooFew op count => s!"{op.name} needs at least two operands, got {count}"
  | .notTwo op count => s!"{op.name} takes exactly two operands, got {count}"

def FileFault.message : FileFault → String
  | .missing file => s!"no such file: {file}"
  | .nameTooLong file => s!"file name too long: {file}"
  | .unusableName table => s!"table name {Quoted.encode table} cannot be used as a file name"

def DumpFault.message : DumpFault → String
  | .lengthTooLarge length => s!"length {length} does not fit u32"
  | .rowIdTooLarge id => s!"row id {id} does not fit u64"
  | .unknownTag tag => s!"unknown type tag {tag}"
  | .tableListedTwice table => s!"table {table} listed twice"
  | .invalidTableName table => s!"invalid table name {Quoted.encode table}"
  | .unexpectedEnd file position => s!"{file}: unexpected end of file at byte {position}"
  | .unterminatedString file position => s!"{file}: unterminated string at byte {position}"
  | .invalidText file => s!"{file}: invalid UTF-8"

namespace Error

def kind : Error → Kind
  | .unknownTable _ | .fieldNotFound _ | .tableExists _ | .duplicateField _ | .ambiguousField _
  | .unknownAlias _ | .aliasCollision _ | .invalidQuery _ => .schema
  | .typeMismatch .. | .stringTooLong .. | .outOfRange .. | .nulInString _ => .type
  | .notNullViolation _ | .missingField _ | .uniqueViolation .. | .foreignKeyViolation ..
  | .dependentRows _ => .constraint
  | .invalidOperation .. | .divisionByZero | .fieldAccessForbidden _ | .invalidExpression _
  | .noCurrentRow => .eval
  | .file _ | .corruptDump _ => .io

def message : Error → String
  | .unknownTable table => s!"no such table: {table}"
  | .fieldNotFound field => s!"no such field: {field}"
  | .tableExists table => s!"table {table} already exists"
  | .duplicateField field => s!"field {field} is listed more than once"
  | .ambiguousField field => s!"ambiguous field name: {field}"
  | .unknownAlias name => s!"unknown table or alias: {name}"
  | .aliasCollision name => s!"alias {name} collides with a table name or another alias"
  | .invalidQuery fault => s!"invalid query: {fault.message}"
  | .typeMismatch expected found =>
    s!"type mismatch: expected {expected.name}, found {found.name}"
  | .stringTooLong field capacity length =>
    s!"string of {length} bytes does not fit into {field} (capacity {capacity})"
  | .outOfRange field expected value =>
    s!"value {value.display} is out of range for {field} ({expected.name})"
  | .nulInString field => s!"string for {field} contains a NUL byte"
  | .notNullViolation field => s!"NOT NULL constraint failed: {field}"
  | .missingField field => s!"field {field} must be specified"
  | .uniqueViolation table field => s!"UNIQUE constraint failed: {table}.{field}"
  | .foreignKeyViolation table field => s!"FOREIGN KEY constraint failed: {table}.{field}"
  | .dependentRows table => s!"table {table} is still referenced by dependent rows"
  | .invalidOperation op left right =>
    s!"cannot apply `{op.symbol}` to {left.name} and {right.name}"
  | .divisionByZero => "division by zero"
  | .fieldAccessForbidden field => s!"cannot access field {field} in this context"
  | .invalidExpression fault => s!"invalid expression: {fault.message}"
  | .noCurrentRow => "scan is not positioned on a row"
  | .file fault => s!"I/O error: {fault.message}"
  | .corruptDump fault => s!"corrupt dump: {fault.message}"

end Error

/-- A result, or the error that prevented it. -/
abbrev Checked (α : Type) := Except Error α

instance {α : Type} [DecidableEq α] : DecidableEq (Checked α)
  | .ok a, .ok b => if h : a = b then isTrue (h ▸ rfl) else isFalse fun e => h (Except.ok.inj e)
  | .error a, .error b =>
    if h : a = b then isTrue (h ▸ rfl) else isFalse fun e => h (Except.error.inj e)
  | .ok _, .error _ => isFalse nofun
  | .error _, .ok _ => isFalse nofun

end RelEngine
