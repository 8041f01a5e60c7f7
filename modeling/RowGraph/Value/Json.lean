import RowGraph.Json.Basic
import RowGraph.Value.Basic

/-!
# Values and JSON

A JSON value becomes a column value: a number is an integer where it is one of sixty-four bits,
arrays and objects become their text. The way back writes what JSON lacks as text, and a
floating-point number that is not finite as null.

The *tagged form* keeps the kind of a value: an object with the kind as its one name.

Modelled: the conversions between JSON and values in both directions (`ofJson`, `toJson`), and the
form in which a value is stored with its kind (`toTagged`, `ofTagged?`).
-/

namespace RowGraph.Value

/-- The column value of a JSON value. -/
def ofJson : Json → Value
  | .null => .null
  | .bool b => .bool b
  | .integer i =>
    if Int64.minValue.toInt ≤ i ∧ i ≤ Int64.maxValue.toInt then .int (Int64.ofInt i)
    else .float (.ofInt i)
  | .float x => .float x
  | .string s => .text s
  | other => .text other.render

/-- The JSON value of a column value. -/
def toJson : Value → Json
  | .null => .null
  | .bool b => .bool b
  | .int i => .integer i.toInt
  | .float x => if x.isFinite then .float x else .null
  | .text s => .string s
  | .bytes b => .string (Text.hexOfBytes b)
  | .date d => .string d.text
  | .dateTime t => .string t.text
  | .uuid u => .string u.text

/-- The tagged form of a value. -/
def toTagged : Value → Json
  | .null => .string "Null"
  | .bool b => .object [("Bool", .bool b)]
  | .int i => .object [("Int", .integer i.toInt)]
  | .float x => .object [("Float", .float x)]
  | .text s => .object [("Text", .string s)]
  | .bytes b => .object [("Bytes", .array (b.map fun n => .integer n.toNat))]
  | .date d => .object [("Date", .string d.text)]
  | .dateTime t => .object [("DateTime", .string t.isoText)]
  | .uuid u => .object [("Uuid", .string u.text)]

/-- A byte as JSON. -/
def byteOfJson? : Json → Option UInt8
  | .integer i => if 0 ≤ i ∧ i < 256 then some (UInt8.ofNat i.toNat) else none
  | _ => none

/-- The value with a tag. -/
def ofTag? : String → Json → Option Value
  | "Null", .null => some .null
  | "Bool", .bool b => some (.bool b)
  | "Int", .integer i =>
    if Int64.minValue.toInt ≤ i ∧ i ≤ Int64.maxValue.toInt then some (.int (Int64.ofInt i))
    else none
  | "Float", .integer i => some (.float (.ofInt i))
  | "Float", .float x => some (.float x)
  | "Text", .string s => some (.text s)
  | "Bytes", .array items => (items.mapM byteOfJson?).map .bytes
  | "Date", .string s => (Date.read? s).map .date
  | "DateTime", .string s => (DateTime.read? s).map .dateTime
  | "Uuid", .string s => (Uuid.read? s).map .uuid
  | _, _ => none

/-- The value of a tagged form: the tag alone for null, or an object with one member. -/
def ofTagged? : Json → Option Value
  | .string "Null" => some .null
  | .object [(tag, content)] => ofTag? tag content
  | _ => none

end RowGraph.Value
