import RowGraph.Yaml.Scalar

/-!
# The words of a text in YAML

The words of a text are its signs and scalars. Where a block begins or ends, and where a key begins,
there is a word of its own, although the text may show it by columns alone.
-/

namespace RowGraph.Yaml

/-- A word of a text in YAML. -/
inductive Token
  | directive (d : Directive)
  | documentBegin
  | documentEnd
  /-- A sequence begins whose items stand behind dashes. -/
  | sequenceBegin
  /-- A mapping begins that is held together by the column of its keys. -/
  | mappingBegin
  | blockEnd
  | bracketOpen
  | bracketClose
  | braceOpen
  | braceClose
  | comma
  /-- A dash before an item. -/
  | item
  /-- A key follows. -/
  | key
  /-- The value of a key follows. -/
  | value
  | anchor (name : String)
  /-- The value of an anchor stands here again. -/
  | repeated (name : String)
  | tag (written : Tag.Written)
  | scalar (s : Scalar)
deriving DecidableEq, Repr

end RowGraph.Yaml
