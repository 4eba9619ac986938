/-
# JSON values

The value type of a JSON library, its accessors, and the library itself as a
parameter: a printer, a parser and the SQL predicate `json_valid`.  A document a
program stores and reads back is related to its value by `ReadsBack`, the
documented behaviour of a printer and a parser that belong together.
-/

namespace ThinWorkspace
namespace Lib

/-- A JSON value; numbers are the unsigned integers a program prints. -/
inductive Json where
  | null
  | bool (b : Bool)
  | num (n : UInt64)
  | str (s : String)
  | arr (items : List Json)
  | obj (fields : List (String × Json))

namespace Json

/-- `Value::get`: the value of a key of an object. -/
def get? : Json → String → Option Json
  | .obj fields, key => (fields.find? fun f => f.1 == key).map (·.2)
  | _, _ => none

/-- `Value::as_str`: the text of a value that is one. -/
def asStr? : Json → Option String
  | .str s => some s
  | _ => none

/-- `Value::as_array`: the items of a value that is an array. -/
def asArray? : Json → Option (List Json)
  | .arr items => some items
  | _ => none

/-- `Value::pointer`, on the keys between the slashes: one field after the other, each of an
object. -/
def pointer? : Json → List String → Option Json
  | v, [] => some v
  | v, key :: keys => (v.get? key).bind fun w => w.pointer? keys

/-- `*self == Value::Null`: an explicit null, not a missing field. -/
def isNull : Json → Bool
  | .null => true
  | _ => false

end Json

/-- A JSON library and the database's `json_valid`: printing always succeeds, reading may fail. -/
structure JsonLibrary where
  toText : Json → String
  fromText : String → Option Json
  jsonValid : String → Bool

/-- The library reads the printed value back, and the database accepts it. -/
structure JsonLibrary.ReadsBack (lib : JsonLibrary) (v : Json) : Prop where
  fromText_toText : lib.fromText (lib.toText v) = some v
  valid_toText : lib.jsonValid (lib.toText v) = true

end Lib
end ThinWorkspace
