import RowGraph.Yaml.Cursor

/-!
# Gaps between words

Plain and quoted scalars may go on in later lines. Between two words of one line the blanks stay;
the end of a line becomes a space, and each empty line after it the end of a line.
-/

namespace RowGraph.Yaml

/-- What lies between two words. -/
structure Gap where
  /-- The blanks before the first end of a line. -/
  blanks : List Char
  /-- How many lines end. -/
  breaks : Nat
deriving DecidableEq, Repr

namespace Gap

/-- The text of a gap. -/
def text (g : Gap) : List Char :=
  match g.breaks with
  | 0 => g.blanks
  | 1 => [' ']
  | n + 2 => List.replicate (n + 1) '\n'

/-- The gap here, when `breaks` lines have ended in it; the column behind it and what follows. On
later lines a tab before the column `least` is an error. -/
def readFrom (least : Nat) :
    (breaks column : Nat) → List Char → Option (Gap × Nat × List Char)
  | breaks, column, [] => some (⟨[], breaks⟩, column, [])
  | breaks, column, c :: rest =>
    if c = '\n' then do
      let (gap, after) ← readFrom least (breaks + 1) 0 rest
      return (⟨[], gap.breaks⟩, after)
    else if c = '\t' && breaks ≠ 0 && column < least then none
    else if isBlank c then do
      let (gap, after) ← readFrom least breaks (column + 1) rest
      return (⟨c :: gap.blanks, gap.breaks⟩, after)
    else some (⟨[], breaks⟩, column, c :: rest)

end Gap

end RowGraph.Yaml
