import RowGraph.Yaml.Block
import RowGraph.Yaml.Plain
import RowGraph.Yaml.Quoted
import RowGraph.Yaml.Token

/-!
# The words of a text

Words are read one by one. What stands before a colon is known to be a key only when the colon is
there, so the place of a value that may turn out to be a key is kept, one for each open bracket, and
the word for the key is put in later. Outside brackets, the columns of dashes and keys say where
blocks begin and end.

Main statement: `length_closeBlocks` (each block that is closed gives one word).

Modelled: the words of block and flow styles, with simple keys and indentation.

Left out: comments, which no word stands for.
-/

namespace RowGraph.Yaml

/-- A value that may turn out to be a key. -/
structure KeyPlace where
  index : Nat
  line : Nat
  column : Nat
  /-- How many words came before it. -/
  count : Nat
  /-- Whether nothing but a key can stand there. -/
  isRequired : Bool
deriving DecidableEq, Repr

/-- A text on the way to its words. -/
structure Lexer where
  place : Cursor
  /-- The words so far, the last one first. -/
  words : List Token
  /-- The columns of the open blocks, the innermost first. -/
  blocks : List Nat
  /-- Whether a key may stand here. -/
  keys : Bool
  /-- The value in the innermost brackets that may turn out to be a key. -/
  candidate : Option KeyPlace
  /-- The same for each pair of brackets around them, from the inside out. -/
  outer : List (Option KeyPlace)
deriving DecidableEq, Repr

namespace Lexer

/-- The beginning of a text. -/
def start (cs : List Char) : Lexer := ⟨.start cs, [], [], true, none, []⟩

/-- Whether brackets are open. -/
def inBrackets (s : Lexer) : Bool := !s.outer.isEmpty

/-- The first column that is inside the innermost block. -/
def least (s : Lexer) : Nat := (s.blocks.head?.map (· + 1)).getD 0

/-- One more word. -/
def emit (t : Token) (s : Lexer) : Lexer := { s with words := t :: s.words }

/-- One more word behind the first `count` words. -/
def insert (count : Nat) (t : Token) (s : Lexer) : Lexer :=
  let later := s.words.length - count
  { s with words := s.words.take later ++ t :: s.words.drop later }

/-- Further on by some characters, when the next word may be a key or not. -/
def advance (length : Nat) (keys : Bool) (s : Lexer) : Lexer :=
  { s with place := s.place.skip length, keys := keys }

/-- Further on to the end of a word. -/
def moveTo (rest : List Char) (s : Lexer) : Lexer := { s with place := s.place.moveTo rest }

/-! ## Blocks -/

/-- A block that begins in this column, unless one has begun there. -/
def openBlock (column : Nat) (begin : Lexer → Lexer) (s : Lexer) : Lexer :=
  if s.least ≤ column then begin { s with blocks := column :: s.blocks } else s

/-- The end of the blocks that do not satisfy a condition, up to the first that does. -/
def closeBlocks (stays : Nat → Bool) (s : Lexer) : Lexer :=
  let closed := s.blocks.takeWhile (!stays ·)
  { s with
    words := List.replicate closed.length .blockEnd ++ s.words
    blocks := s.blocks.drop closed.length }

/-! ## Keys -/

/-- No value that may be a key. -/
def dropCandidate (s : Lexer) : Option Lexer :=
  if s.candidate.any (·.isRequired) then none else some { s with candidate := none }

/-- The value here may be a key. -/
def addCandidate (s : Lexer) : Option Lexer :=
  if s.keys then do
    let s ← s.dropCandidate
    let isRequired := !s.inBrackets && s.blocks.head? = some s.place.column
    let ⟨index, line, column, _⟩ := s.place
    return { s with candidate := some ⟨index, line, column, s.words.length, isRequired⟩ }
  else some s

/-- Whether it is too late for a colon here. -/
def isPast (c : Cursor) (k : KeyPlace) : Bool := k.line < c.line || k.index + 1024 < c.index

/-- The values that may still turn out to be keys. -/
def dropPast (s : Lexer) : Option Lexer :=
  let past := (s.candidate :: s.outer).filterMap fun k => k.filter (isPast s.place)
  if past.any (·.isRequired) then none
  else
    let keep (k : Option KeyPlace) := k.filter fun k => !isPast s.place k
    some { s with candidate := keep s.candidate, outer := s.outer.map keep }

/-! ## Words -/

/-- At the beginning of the next word. Blocks end whose column is behind it. -/
def toContent (s : Lexer) : Option Lexer := do
  let (place, keys) := s.place.content s.inBrackets s.keys
  let s ← { s with place := place, keys := keys }.dropPast
  return if s.inBrackets then s else s.closeBlocks (· ≤ place.column)

/-- No key may stand here, and no block is open: a document begins or ends. -/
def outside (s : Lexer) : Option Lexer := do
  let s ← (if s.inBrackets then s else s.closeBlocks fun _ => false).dropCandidate
  return { s with keys := false }

/-- A directive. -/
def directive (s : Lexer) : Option Lexer := do
  let s ← s.outside
  let (d, rest) ← Directive.read? (s.place.rest.drop 1)
  return s.emit (.directive d) |>.moveTo rest

/-- The mark of a document. -/
def mark (s : Lexer) : Option Lexer := do
  let s ← s.outside
  let begins := s.place.rest.head? = some '-'
  return s.emit (if begins then .documentBegin else .documentEnd) |>.advance 3 false

/-- An opening bracket, which can begin a key. -/
def opening (t : Token) (s : Lexer) : Option Lexer := do
  let s ← s.addCandidate
  return { s with candidate := none, outer := s.candidate :: s.outer }.emit t |>.advance 1 true

/-- A closing bracket. -/
def closing (t : Token) (s : Lexer) : Option Lexer := do
  let s ← s.dropCandidate
  let s := match s.outer with
    | candidate :: outer => { s with candidate := candidate, outer := outer }
    | [] => s
  return s.emit t |>.advance 1 false

/-- A comma. -/
def comma (s : Lexer) : Option Lexer := do
  let s ← s.dropCandidate
  return s.emit .comma |>.advance 1 true

/-- A sign that stands outside brackets only where a key may stand, and begins a block there. -/
def beginBlock (block : Token) (s : Lexer) : Option Lexer :=
  if s.inBrackets then some s
  else if s.keys then some (s.openBlock s.place.column (emit block))
  else none

/-- The dash of an item. -/
def item (s : Lexer) : Option Lexer := do
  let s ← (← s.beginBlock .sequenceBegin).dropCandidate
  return s.emit .item |>.advance 1 true

/-- The question mark before a key. -/
def key (s : Lexer) : Option Lexer := do
  let s ← (← s.beginBlock .mappingBegin).dropCandidate
  return s.emit .key |>.advance 1 !s.inBrackets

/-- The colon before a value. What came before it on its line is the key, if it can be one. -/
def value (s : Lexer) : Option Lexer := do
  match s.candidate with
  | some k =>
    let s := { s with candidate := none }.insert k.count .key
    let s := if s.inBrackets then s else s.openBlock k.column (insert k.count .mappingBegin)
    return s.emit .value |>.advance 1 false
  | none =>
    let s ← s.beginBlock .mappingBegin
    return s.emit .value |>.advance 1 !s.inBrackets

/-- The name of an anchor, and what follows it. -/
def name? (cs : List Char) : Option (String × List Char) :=
  let name := cs.takeWhile isWord
  let rest := cs.drop name.length
  if !name.isEmpty && (endsWord rest ||
      rest.head?.any (· ∈ ['?', ':', ',', ']', '\x7d', '%', '@', '\x60'])) then
    some (.ofList name, rest)
  else none

/-- The name of an anchor behind its sign. -/
def named (t : String → Token) (s : Lexer) : Option Lexer := do
  let s ← s.addCandidate
  let (name, rest) ← name? (s.place.rest.drop 1)
  return { s with keys := false }.emit (t name) |>.moveTo rest

/-- A tag. -/
def tag (s : Lexer) : Option Lexer := do
  let s ← s.addCandidate
  let (tag, rest) ← Tag.Written.read? s.inBrackets s.place.rest
  return { s with keys := false }.emit (.tag tag) |>.moveTo rest

/-- A scalar that is a block of lines. -/
def block (s : Lexer) : Option Lexer := do
  let s ← s.dropCandidate
  let (scalar, place) ← Block.read? s.least s.place
  return { s with place := place, keys := true }.emit (.scalar scalar)

/-- A scalar in quotes. -/
def quoted (s : Lexer) : Option Lexer := do
  let s ← s.addCandidate
  let (text, place) ← Quoted.read? s.place
  return { s with place := place, keys := false }.emit (.scalar ⟨.quoted, none, text⟩)

/-- A plain scalar. When lines ended behind it, a key may follow. -/
def plain (s : Lexer) : Option Lexer := do
  let s ← s.addCandidate
  let (text, ended, place) ← Plain.read? s.inBrackets s.least s.place
  return { s with place := place, keys := ended }.emit (.scalar ⟨.plain, none, text⟩)

/-- The next word, which begins here. -/
def next (s : Lexer) : Option Lexer :=
  let c := s.place
  let isSign := s.inBrackets || endsWord (c.rest.drop 1)
  match c.rest.head? with
  | none => none
  | some sign =>
    if c.column = 0 && sign = '%' then s.directive
    else if c.column = 0 && beginsMark c.rest then s.mark
    else match sign with
      | '[' => s.opening .bracketOpen
      | ']' => s.closing .bracketClose
      | '\x7b' => s.opening .braceOpen
      | '\x7d' => s.closing .braceClose
      | ',' => s.comma
      | '*' => s.named .repeated
      | '&' => s.named .anchor
      | '!' => s.tag
      | '\'' | '"' => s.quoted
      | _ =>
        if sign = '-' && endsWord (c.rest.drop 1) then s.item
        else if sign = '?' && isSign then s.key
        else if sign = ':' && isSign then s.value
        else if sign ∈ ['|', '>'] && !s.inBrackets then s.block
        else if Plain.begins s.inBrackets c.rest then s.plain
        else none

/-- The words up to the end of the text. -/
def wordsFrom : (fuel : Nat) → Lexer → Option (List Token)
  | 0, _ => none
  | fuel + 1, s => do
    let s ← s.toContent
    if s.place.rest.isEmpty then return (← s.outside).words.reverse
    wordsFrom fuel (← s.next)

/-! ## Laws -/

theorem blocks_closeBlocks (stays : Nat → Bool) (s : Lexer) :
    (s.closeBlocks stays).blocks = s.blocks.dropWhile (!stays ·) := by
  simp only [closeBlocks]
  induction s.blocks with
  | nil => rfl
  | cons column rest ih => by_cases h : stays column <;> simp [h, ih]

/-- Each block that is closed gives one word. -/
theorem length_closeBlocks (stays : Nat → Bool) (s : Lexer) :
    (s.closeBlocks stays).words.length + (s.closeBlocks stays).blocks.length =
      s.words.length + s.blocks.length := by
  have := (List.takeWhile_sublist (!stays ·) (l := s.blocks)).length_le
  simp only [closeBlocks, List.length_append, List.length_replicate, List.length_drop]
  omega

end Lexer

/-- The words of a text. Each of them has at least one character, except for blocks. -/
def tokens? (cs : List Char) : Option (List Token) :=
  (Lexer.start cs).wordsFrom (cs.length + 1)

end RowGraph.Yaml
