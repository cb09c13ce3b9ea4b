import RelEngine.Bytes
import RelEngine.Schema
import RelEngine.Text.Utf8

/-!
Packed rows: reading and writing named fields of a byte sequence laid out by a schema.

Numbers stand with the least significant byte first, booleans as 32-bit integers, and strings are
padded with zero bytes up to the capacity.
-/
namespace RelEngine

namespace Row

/-- The bit of column `index` within its byte of the null bits. -/
def nullMask (index : Nat) : UInt8 := 1 <<< UInt8.ofNat (index % 8)

def isNullAt (row : Bytes) (index : Nat) : Bool :=
  row.getD (index / 8) 0 &&& nullMask index != 0

def markNull (row : Bytes) (index : Nat) : Bytes :=
  row.modify (index / 8) (· ||| nullMask index)

def clearNull (row : Bytes) (index : Nat) : Bytes :=
  row.modify (index / 8) (· &&& ~~~nullMask index)

/-- The null bits of `n` columns, all set. The rest of the last byte is clear. -/
def allNull (n : Nat) : Bytes :=
  (List.range ((n + 7) / 8)).map fun i => UInt8.ofNat (Nat.pow 2 (min 8 (n - 8 * i)) - 1)

/-- The row in which every field is NULL. -/
def blank (schema : Schema) : Bytes :=
  allNull schema.size ++ List.replicate (schema.fieldBytes schema.size) 0

def int32OfBits (n : Nat) : Int32 := Int32.ofBitVec (BitVec.ofNat 32 n)

/-- The scalar in the bytes of a field. A string ends at the first zero byte. -/
def decode (type : DataType) (bytes : Bytes) : Scalar :=
  match type with
  | .bool => .bool (Bytes.ofLittleEndian (bytes.take 4) != 0)
  | .int => .int (int32OfBits (Bytes.ofLittleEndian (bytes.take 4)))
  | .float => .float (.ofBits (Bytes.ofLittleEndian (bytes.take 4)))
  | .double => .double (.ofBits (Bytes.ofLittleEndian (bytes.take 8)))
  | .varchar => .text (Utf8.decodeLenient (bytes.takeWhile (· != 0)))

/-- The bytes of a scalar in a column of its own type. A zero byte would end a string early, so no
string may hold one. -/
def encode (column : Column) (value : Scalar) : Checked Bytes :=
  match column.type, value with
  | .bool, .bool b => .ok (Bytes.littleEndian 4 b.toNat)
  | .int, .int n => .ok (Bytes.littleEndian 4 n.toBitVec.toNat)
  | .float, .float x => .ok (Bytes.littleEndian 4 x.bits.toNat)
  | .double, .double x => .ok (Bytes.littleEndian 8 x.bits.toNat)
  | .varchar, .text s =>
    let bytes := Utf8.encode s
    if column.size < bytes.length then
      .error (.stringTooLong column.name column.size bytes.length)
    else if bytes.contains 0 then .error (.nulInString column.name)
    else .ok (bytes ++ List.replicate (column.size - bytes.length) 0)
  | expected, found => .error (.typeMismatch expected found.type)

def isNull (schema : Schema) (row : Bytes) (name : String) : Checked Bool :=
  return isNullAt row (← schema.slot name).index

def read (row : Bytes) (slot : Slot) : Value :=
  if isNullAt row slot.index then none
  else some (decode slot.column.type ((row.drop slot.offset).take slot.column.size))

def get (schema : Schema) (row : Bytes) (name : String) : Checked Value :=
  return read row (← schema.slot name)

/-- The row with a named field changed. NULL sets the null bit and keeps the field's bytes. -/
def set (schema : Schema) (row : Bytes) (name : String) (value : Value) : Checked Bytes := do
  let slot ← schema.slot name
  match value with
  | none => return markNull row slot.index
  | some scalar =>
    let bytes ← encode slot.column scalar
    return clearNull (Bytes.overwrite row slot.offset bytes) slot.index

end Row

end RelEngine
