import RelEngine.Bytes
import RelEngine.Error
import RelEngine.SortedMap
import RelEngine.Text.Utf8

/-!
The files of a dump: one for all schemas, one for all references, and one for the rows of each table.

Which names are not too long for a file is up to the file system. It is a parameter of what is written,
`fits`, and `short` is what one usually finds.
-/
namespace RelEngine

/-- File contents by file name. Writing a name twice keeps the later content. -/
abbrev Files := SortedMap String Bytes

namespace Files

def schemas : String := "schema.dat"

def references : String := "constraints.dat"

def hasDoubleDot : List Char → Bool
  | '.' :: '.' :: _ => true
  | _ :: rest => hasDoubleDot rest
  | [] => false

/-- The file for the rows of a table. A name that could lead out of the directory has none. -/
def ofTable? (table : String) : Option String :=
  let letters := table.toList
  if letters.isEmpty || letters.any (fun c => c == '/' || c == '\\' || c == '\x00')
      || hasDoubleDot letters then none
  else some (table ++ ".dat")

/-- The names that usual file systems have room for. -/
def short (name : String) : Bool := (Utf8.encode name).length ≤ 255

/-- Refuses a name that the file system has no room for. -/
def checkName (fits : String → Bool) (name : String) : Checked Unit :=
  if fits name then .ok () else .error (.file (.nameTooLong name))

def ofEntries (entries : List (String × Bytes)) (fits : String → Bool := short) : Checked Files := do
  entries.forM fun (name, _) => checkName fits name
  return entries.foldl (fun (files : Files) (name, bytes) => files.insert name bytes) .empty

def content (files : Files) (name : String) : Checked Bytes :=
  match files.find? name with
  | some bytes => .ok bytes
  | none => .error (.file (.missing name))

end Files

end RelEngine
