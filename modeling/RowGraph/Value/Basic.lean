import RowGraph.Calendar
import RowGraph.Number.Shortest
import RowGraph.Text.LowerCase
import RowGraph.Uuid

/-!
# Values of columns

A value is what a statement binds to a placeholder and what a cell of a row holds. Besides the text
of a value there is its *match key*: the text by which foreign keys and primary keys are compared in
memory. A number without a fraction has the same key however it is stored, and null has none.

Main statements: `matchKey_eq_none_iff` (null alone matches nothing) and `same_comm`.

Modelled: `SqlType` (`ColumnType`) and `Value` with `is_null`, `as_i64` (`asInt?`), `as_str`
(`asText?`), `is_unassigned_key`, `match_key`, `to_lowercase` (`lowered`) and the text of a value
(`render`).

Left out: the conversions from numbers, texts and bytes to values, which only pick a constructor.
-/

namespace RowGraph

/-- The declared type of a column. -/
inductive ColumnType
  | bool
  | int
  | bigInt
  | float
  | text
  | bytes
  | date
  | dateTime
  | uuid
deriving DecidableEq, Repr

/-- Whether keys of the type are compared as texts. -/
def ColumnType.isTextual : ColumnType → Bool
  | .text => true
  | _ => false

/-- The name of a type. -/
def ColumnType.name : ColumnType → String
  | .bool => "Bool"
  | .int => "Int"
  | .bigInt => "BigInt"
  | .float => "Float"
  | .text => "Text"
  | .bytes => "Bytes"
  | .date => "Date"
  | .dateTime => "DateTime"
  | .uuid => "Uuid"

/-- All types. -/
def ColumnType.all : List ColumnType :=
  [.bool, .int, .bigInt, .float, .text, .bytes, .date, .dateTime, .uuid]

/-- The type with this name. -/
def ColumnType.ofName? (name : String) : Option ColumnType :=
  ColumnType.all.find? (·.name == name)

/-- Every type is found by its name. -/
theorem ColumnType.ofName?_name (t : ColumnType) : ColumnType.ofName? t.name = some t := by
  cases t <;> decide

/-- A single value. -/
inductive Value
  | null
  | bool (b : Bool)
  | int (i : Int64)
  | float (x : Binary64)
  | text (s : String)
  | bytes (b : List UInt8)
  | date (d : Date)
  | dateTime (t : DateTime)
  | uuid (u : Uuid)
deriving DecidableEq, Inhabited

namespace Value

/-- Whether the value is null. -/
def isNull : Value → Bool
  | .null => true
  | _ => false

/-- Equality as values: floating-point numbers compare as numbers, and a number is never equal to
one stored in another way. -/
def same : Value → Value → Bool
  | .float x, .float y => x.equal y
  | a, b => a == b

/-- The integer of sixty-four bits nearest to `i`. -/
def clamp (i : Int) : Int64 :=
  Int64.ofInt (max Int64.minValue.toInt (min Int64.maxValue.toInt i))

/-- The value as an integer: a truth value counts as zero or one, a floating-point number has to be
without a fraction, a text has to be an integer's. -/
def asInt? : Value → Option Int64
  | .int i => some i
  | .bool b => some (if b then 1 else 0)
  | .float x => x.integer?.map clamp
  | .text s => (Text.readInt? Int64.minValue.toInt Int64.maxValue.toInt s).map Int64.ofInt
  | _ => none

/-- The text of a text value. -/
def asText? : Value → Option String
  | .text s => some s
  | _ => none

/-- Whether a key with this value has not been assigned yet. -/
def isUnassignedKey : Value → Bool
  | .null => true
  | .int i => i == 0
  | .text s => s.isEmpty
  | .uuid u => u == Uuid.nil
  | _ => false

/-- The key by which values are matched in memory; with `ignoreCase` texts match in any case. -/
def matchKey (ignoreCase : Bool) : Value → Option String
  | .null => none
  | .bool b => some ("i:" ++ if b then "1" else "0")
  | .int i => some ("i:" ++ Text.ofInt i.toInt)
  | .float x => some <|
    match x.integer? with
    | some i => "i:" ++ Text.ofInt (clamp i).toInt
    | none => "f:" ++ FloatStyle.plain.render x
  | .text s => some ("s:" ++ if ignoreCase then Text.lowerCase s else s)
  | .bytes b => some ("b:" ++ Text.hexOfBytes b)
  | .date d => some ("d:" ++ d.text)
  | .dateTime t => some ("t:" ++ t.text)
  | .uuid u => some ("u:" ++ u.text)

/-- The value with a text in small letters. -/
def lowered : Value → Value
  | .text s => .text (Text.lowerCase s)
  | v => v

/-- The text of a value. -/
def render : Value → String
  | .null => "NULL"
  | .bool b => if b then "true" else "false"
  | .int i => Text.ofInt i.toInt
  | .float x => FloatStyle.plain.render x
  | .text s => s
  | .bytes b => "0x" ++ Text.hexOfBytes b
  | .date d => d.text
  | .dateTime t => t.text
  | .uuid u => u.text

/-- Null alone has no match key. -/
theorem matchKey_eq_none_iff {ignoreCase : Bool} {v : Value} :
    v.matchKey ignoreCase = none ↔ v = .null := by
  cases v <;> simp [matchKey]

/-- Not-a-number alone is not equal to itself. -/
theorem same_self {v : Value} (h : v ≠ .float .nan) : v.same v = true := by
  cases v with
  | float x => exact Binary64.equal_self_iff.mpr fun hx => h (congrArg Value.float hx)
  | _ => exact beq_self_eq_true _

theorem same_comm (a b : Value) : a.same b = b.same a := by
  cases a <;> cases b <;> simp [same, Binary64.equal_comm, BEq.comm]

theorem isUnassignedKey_of_isNull {v : Value} (h : v.isNull = true) :
    v.isUnassignedKey = true := by
  cases v <;> simp_all [isNull, isUnassignedKey]

end Value

end RowGraph
