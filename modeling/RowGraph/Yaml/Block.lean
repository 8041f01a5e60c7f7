import RowGraph.Yaml.Scalar

/-!
# Scalars that are blocks of lines

A block is indented by what its head asks for, or else by its first line that is not empty. The
lines of a literal block stay; those of a folded one are joined where neither begins with a blank.
The head also says what happens to the ends of lines behind the last line.
-/

namespace RowGraph.Yaml.Block

/-- Which ends of lines stay behind the last line. -/
inductive Chomping
  | strip
  | clip
  | keep
deriving DecidableEq, Repr

/-- What the head of a block says. -/
structure Head where
  chomping : Chomping
  /-- The indentation below the place where the block stands. -/
  indent : Option Nat
deriving DecidableEq, Repr

namespace Head

/-- The sign for the ends of lines, and what follows it. -/
def sign (cs : List Char) : Chomping × List Char :=
  match cs with
  | '-' :: rest => (.strip, rest)
  | '+' :: rest => (.keep, rest)
  | _ => (.clip, cs)

/-- The digit for the indentation, and what follows it; no block is indented by zero. -/
def digit? (cs : List Char) : Option (Option Nat × List Char) :=
  match cs with
  | '0' :: _ => none
  | c :: rest => some (if c.isDigit then (some (c.toNat - '0'.toNat), rest) else (none, cs))
  | [] => some (none, cs)

/-- The head of a block, and the characters behind its line. The sign and the digit come in any
order. -/
def read? (cs : List Char) : Option (Head × List Char) := do
  let (before, rest) := sign cs
  let (indent, rest) ← digit? rest
  let (chomping, rest) := if before = .clip && indent.isSome then sign rest else (before, rest)
  let rest := rest.dropWhile isBlank
  let rest := if rest.head? = some '#' then rest.dropWhile (· ≠ '\n') else rest
  guard (endsWord rest)
  return (⟨chomping, indent⟩, rest.drop 1)

end Head

/-- Where the next line of a block begins. -/
structure Margin where
  /-- How many lines ended before. -/
  breaks : Nat
  /-- The most spaces that a line so far begins with. -/
  widest : Nat
  column : Nat
  rest : List Char
deriving DecidableEq, Repr

/-- The place behind empty lines and the indentation, as far as it is known. A tab in the
indentation is an error. -/
def margin? (indent : Option Nat) :
    (breaks widest column : Nat) → List Char → Option Margin
  | breaks, widest, column, [] => some ⟨breaks, max widest column, column, []⟩
  | breaks, widest, column, c :: rest =>
    let isIndented := indent.all (column < ·)
    if isIndented && c = ' ' then margin? indent breaks widest (column + 1) rest
    else if isIndented && c = '\t' then none
    else if c = '\n' then margin? indent (breaks + 1) (max widest column) 0 rest
    else some ⟨breaks, max widest column, column, c :: rest⟩

/-- The text of a block. -/
structure Body where
  /-- The lines without the ends of lines behind the last one. -/
  text : List Char
  /-- How many lines end there: the last one itself, if there is one that ends. -/
  ended : Nat
  /-- How many empty lines follow. -/
  empty : Nat
  rest : List Char
deriving DecidableEq, Repr

/-- The lines of a block from this margin on. `ended` says how many lines ended just before the
empty ones, and `afterBlank` whether the line before begins with a blank. -/
def body? (isFolded : Bool) (indent : Nat) :
    (fuel ended : Nat) → (afterBlank : Bool) → Margin → Option Body
  | 0, _, _, _ => none
  | fuel + 1, ended, afterBlank, m =>
    if m.column ≠ indent || m.rest.isEmpty then some ⟨[], ended, m.breaks, m.rest⟩
    else do
      let line := m.rest.takeWhile (· ≠ '\n')
      let rest := m.rest.drop line.length
      let beginsBlank := line.head?.any isBlank
      let joint := if isFolded && ended ≠ 0 && !afterBlank && !beginsBlank then
          if m.breaks = 0 then [' '] else List.replicate m.breaks '\n'
        else List.replicate (ended + m.breaks) '\n'
      let next ← margin? (some indent) 0 0 (if rest.isEmpty then 1 else 0) (rest.drop 1)
      let more ← body? isFolded indent fuel (min 1 rest.length) beginsBlank next
      return { more with text := joint ++ line ++ more.text }

/-- The block that begins here, in what stands at the column `least` or behind it, and the place
after it. -/
def read? (least : Nat) (c : Cursor) : Option (Scalar × Cursor) := do
  let isFolded := c.rest.head? = some '>'
  let (head, rest) ← Head.read? (c.rest.drop 1)
  let asked := head.indent.map (least - 1 + ·)
  let first ← margin? asked 0 0 0 rest
  let indent := asked.getD (max first.widest (max least 1))
  let body ← body? isFolded indent (rest.length + 1) 0 false first
  let ends := match head.chomping with
    | .strip => 0
    | .clip => body.ended
    | .keep => body.ended + body.empty
  let text := body.text ++ List.replicate ends '\n'
  return (⟨if isFolded then .folded else .literal, none, .ofList text⟩, c.moveTo body.rest)

end RowGraph.Yaml.Block
