import RowGraph.Text.Printable
import RowGraph.Value.Basic

/-!
# Describing values

The description of a value names its kind and shows its content without ambiguity: texts are in
quotes with escapes, floating-point numbers are never taken for integers. Lists stand in brackets.

Modelled: the text of values for people who look for mistakes (`describe`).
-/

namespace RowGraph

namespace Text

/-- The hexadecimal digits of a code point, without zeros in front. -/
def codePoint (c : Char) : List Char := Nat.toDigits 16 c.toNat

/-- A character inside a described text. -/
def describedChar (c : Char) : List Char :=
  if c = '\x00' then ['\\', '0']
  else if c = '\t' then ['\\', 't']
  else if c = '\r' then ['\\', 'r']
  else if c = '\n' then ['\\', 'n']
  else if c = '"' then ['\\', '"']
  else if c = '\\' then ['\\', '\\']
  else if isPrintable c then [c]
  else ['\\', 'u', '{'] ++ codePoint c ++ ['}']

/-- A text in quotes, with escapes for what cannot be shown. -/
def described (s : String) : String :=
  "\"" ++ .ofList (s.toList.flatMap describedChar) ++ "\""

/-- Descriptions in brackets. -/
def describedList (items : List String) : String :=
  "[" ++ ", ".intercalate items ++ "]"

end Text

/-- The kind of a value with its content. -/
def Value.describe : Value → String
  | .null => "Null"
  | .bool b => "Bool(" ++ (if b then "true" else "false") ++ ")"
  | .int i => "Int(" ++ Text.ofInt i.toInt ++ ")"
  | .float x => "Float(" ++ FloatStyle.described.render x ++ ")"
  | .text s => "Text(" ++ Text.described s ++ ")"
  | .bytes b => "Bytes(" ++ Text.describedList (b.map fun n => Text.ofInt n.toNat) ++ ")"
  | .date d => "Date(" ++ d.text ++ ")"
  | .dateTime t => "DateTime(" ++ t.isoText ++ ")"
  | .uuid u => "Uuid(" ++ u.text ++ ")"

end RowGraph
