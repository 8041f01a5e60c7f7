import RowGraph.Yaml.Folding

/-!
# Plain scalars

A plain scalar ends before a comment, before a colon that a blank follows, before the mark of a
document, and inside brackets before what separates or closes. It goes on in lines that are indented
far enough.
-/

namespace RowGraph.Yaml.Plain

/-- The characters with which no plain scalar begins. -/
def indicators : List Char :=
  ['-', '?', ':', ',', '[', ']', '\x7b', '\x7d', '#', '&', '*', '!', '|', '>', '\'', '"', '%', '@',
    '\x60']

/-- What separates or closes inside brackets. -/
def separators : List Char := [',', '[', ']', '\x7b', '\x7d']

/-- Whether a plain scalar begins here. A dash may begin one, and outside brackets a question mark
or a colon, where no blank follows. -/
def begins (inBrackets : Bool) : List Char → Bool
  | [] => false
  | c :: rest =>
    !(isGap c || c ∈ indicators) || (c = '-' && !rest.head?.any isBlank) ||
      (!inBrackets && (c = '?' || c = ':') && !endsWord rest)

/-- The characters up to the next gap or the end of the scalar, and what follows. Inside brackets a
colon before a separator is an error. -/
def word? (inBrackets : Bool) : List Char → Option (List Char × List Char)
  | [] => some ([], [])
  | c :: rest =>
    if isGap c then some ([], c :: rest)
    else if inBrackets && c = ':' && rest.head?.any (· ∈ '?' :: separators) then none
    else if (c = ':' && endsWord rest) || (inBrackets && c ∈ separators) then some ([], c :: rest)
    else (word? inBrackets rest).map fun (more, after) => (c :: more, after)

/-- A plain scalar that goes on in this column: its text, whether lines ended behind it, and what
follows. Outside brackets a later line begins at the column `least` or behind it. -/
def readFrom (inBrackets : Bool) (least : Nat) :
    (fuel column : Nat) → List Char → Option (List Char × Bool × List Char)
  | 0, _, _ => none
  | fuel + 1, column, cs => do
    let (word, rest) ← word? inBrackets cs
    if word.isEmpty || !rest.head?.any isGap then return (word, false, rest)
    let (gap, column, rest) ← Gap.readFrom least 0 (column + word.length) rest
    let ended := gap.breaks ≠ 0
    if (!inBrackets && column < least) || (column = 0 && beginsMark rest) ||
        rest.head? = some '#' then
      return (word, ended, rest)
    let (more, endedAfter, after) ← readFrom inBrackets least fuel column rest
    if more.isEmpty then return (word, ended, after)
    return (word ++ gap.text ++ more, endedAfter, after)

/-- The plain scalar here, whether lines ended behind it, and the place after it. -/
def read? (inBrackets : Bool) (least : Nat) (c : Cursor) : Option (String × Bool × Cursor) := do
  let (text, ended, rest) ← readFrom inBrackets least (c.rest.length + 1) c.column c.rest
  return (.ofList text, ended, c.moveTo rest)

end RowGraph.Yaml.Plain
