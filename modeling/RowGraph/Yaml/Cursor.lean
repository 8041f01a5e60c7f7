/-!
# Places in a text of several lines

How a text in YAML is read depends on lines and columns: a block is held together by its
indentation, and a key has to end on the line on which it begins, within 1024 octets.

Main statements: `rest_skip` and `length_rest_content_le` (a cursor only moves forward).
-/

namespace RowGraph.Yaml

/-- A place in a text: how many octets came before, its line and column, and the characters from
there on. -/
structure Cursor where
  index : Nat
  line : Nat
  column : Nat
  rest : List Char
deriving DecidableEq, Repr

/-- Whether the character is a blank inside a line. -/
def isBlank (c : Char) : Bool := c = ' ' || c = '\t'

/-- Whether the character stands between words: a blank or the end of a line. -/
def isGap (c : Char) : Bool := isBlank c || c = '\n'

/-- Whether a word ends before these characters. -/
def endsWord : List Char → Bool
  | [] => true
  | c :: _ => isGap c

/-- Whether the mark of a document begins the line that these characters begin. -/
def beginsMark (cs : List Char) : Bool :=
  ["---", "..."].any fun mark => mark.toList.isPrefixOf cs && endsWord (cs.drop mark.length)

namespace Cursor

/-- The beginning of a text. -/
def start (cs : List Char) : Cursor := ⟨0, 0, 0, cs⟩

/-- The place after one character. -/
def next (c : Cursor) : Cursor :=
  match c.rest with
  | [] => c
  | '\n' :: rest => ⟨c.index + 1, c.line + 1, 0, rest⟩
  | d :: rest => ⟨c.index + d.utf8Size, c.line, c.column + 1, rest⟩

/-- The place after several characters. -/
def skip (c : Cursor) : Nat → Cursor
  | 0 => c
  | n + 1 => c.next.skip n

/-- The place at which this end of the text begins. -/
def moveTo (c : Cursor) (rest : List Char) : Cursor := c.skip (c.rest.length - rest.length)

/-- The next place that holds something, and whether a key may stand there. Blanks, comments and the
ends of lines are passed over, and a byte order mark at the beginning of a line. Where a key may
stand outside brackets no tab may; a new line outside brackets allows one. -/
def contentFrom (inBrackets : Bool) :
    (inComment keys : Bool) → (index line column : Nat) → List Char → Cursor × Bool
  | _, keys, index, line, column, [] => (⟨index, line, column, []⟩, keys)
  | inComment, keys, index, line, column, c :: rest =>
    if c = '\n' then
      contentFrom inBrackets false (keys || !inBrackets) (index + 1) (line + 1) 0 rest
    else if inComment || c = '#' then
      contentFrom inBrackets true keys (index + c.utf8Size) line (column + 1) rest
    else if c = ' ' || (c = '\t' && (inBrackets || !keys)) || (c = '\ufeff' && column = 0) then
      contentFrom inBrackets false keys (index + c.utf8Size) line (column + 1) rest
    else (⟨index, line, column, c :: rest⟩, keys)

/-- The next place that holds something, and whether a key may stand there, when `keys` says whether
one may stand here. -/
def content (c : Cursor) (inBrackets keys : Bool) : Cursor × Bool :=
  contentFrom inBrackets false keys c.index c.line c.column c.rest

/-! ## Laws -/

theorem rest_next (c : Cursor) : c.next.rest = c.rest.tail := by
  obtain ⟨index, line, column, rest⟩ := c
  unfold next
  split <;> simp_all

/-- Skipping characters drops them from the text. -/
theorem rest_skip (c : Cursor) (n : Nat) : (c.skip n).rest = c.rest.drop n := by
  induction n generalizing c with
  | zero => simp [skip]
  | succ n ih => simp [skip, ih, rest_next]

theorem length_rest_contentFrom_le (inBrackets inComment keys : Bool) (index line column : Nat)
    (cs : List Char) :
    (contentFrom inBrackets inComment keys index line column cs).1.rest.length ≤ cs.length := by
  induction cs generalizing inComment keys index line column with
  | nil => simp [contentFrom]
  | cons c rest ih =>
    simp only [contentFrom]
    split
    · exact Nat.le_succ_of_le (ih ..)
    · split
      · exact Nat.le_succ_of_le (ih ..)
      · split
        · exact Nat.le_succ_of_le (ih ..)
        · exact Nat.le_refl _

/-- The next content is not before the cursor. -/
theorem length_rest_content_le (c : Cursor) (inBrackets keys : Bool) :
    (c.content inBrackets keys).1.rest.length ≤ c.rest.length :=
  length_rest_contentFrom_le ..

end Cursor

end RowGraph.Yaml
