import RowGraph.Yaml.Lexer
import RowGraph.Yaml.Node

/-!
# Reading YAML

A value is read from the words of a text. Blocks begin and end with words of their own; inside
brackets there are no blocks. A value may have an anchor and a tag in front of it, and where these
stand alone the value is an empty one.

A text holds at most one document.

Modelled: how settings are read from a text, as far as they can tell values apart.

Left out: several documents in a text, merging of mappings, and where in the text a mistake is.
-/

namespace RowGraph.Yaml

/-- What is known while a document is read. -/
structure Reading where
  /-- The words to come. -/
  words : List Token
  /-- The number of each name of an anchor so far. -/
  anchors : List (String × Nat)
  /-- What the handles of tags stand for. -/
  handles : List (String × List UInt8)

/-- A computation that reads words. -/
abbrev Read := StateT Reading Option

namespace Read

/-- The next word. -/
def peek? : Read (Option Token) := return (← get).words.head?

/-- Past the next word. -/
def drop : Read Unit := modify fun r => { r with words := r.words.drop 1 }

/-- Past this word, if it is the next one. -/
def drop? (t : Token) : Read Bool := do
  let found := (← peek?) == some t
  if found then drop
  return found

/-- Past this word, which has to be the next one. -/
def expect (t : Token) : Read Unit := do guard (← drop? t)

/-- Whether the next word is one of these. -/
def isAt (ts : List Token) : Read Bool := return (← peek?).any (ts.contains ·)

/-- The number of the anchor with this name from here on: how many names there were before it. -/
def define (name : String) : Read Nat := do
  let number := (← get).anchors.length
  modify fun r => { r with anchors := (name, number) :: r.anchors.filter (·.1 != name) }
  return number

/-! ## Anchors and tags -/

/-- The name of an anchor here, if there is one. -/
def anchor? : Read (Option String) := do
  match ← peek? with
  | some (.anchor name) => drop; return some name
  | _ => return none

/-- The tag here, if there is one. -/
def tag? : Read (Option Tag) := do
  match ← peek? with
  | some (.tag written) =>
    drop
    let tag ← (written.resolve? (← get).handles : Option _)
    return some tag
  | _ => return none

/-- The number of the anchor here and the tag, in any order. -/
def properties : Read (Option Nat × Option Tag) := do
  let name ← anchor?
  let tag ← tag?
  let name ← if name.isNone && tag.isSome then anchor? else pure name
  return (← name.mapM define, tag)

/-- An anchor or a tag without a value. -/
def bare (anchor : Option Nat) (tag : Option Tag) : Read Node := do
  guard (anchor.isSome || tag.isSome)
  return .scalar anchor { Scalar.nothing with tag }

/-! ## Values -/

mutual

/-- A value. Outside brackets it can be a block, and where `canDash` holds also a sequence whose
dashes stand in the column of the block around it. -/
def node (canBlock canDash : Bool) : (fuel : Nat) → Read Node
  | 0 => failure
  | fuel + 1 => do
    if let some (.repeated name) ← peek? then
      drop
      let number ← ((← get).anchors.lookup name : Option _)
      return .repeated number
    let (anchor, tag) ← properties
    match ← peek? with
    | some (.scalar s) => do
      drop
      return .scalar anchor { s with tag }
    | some .bracketOpen => do
      drop
      return .sequence anchor (← items true fuel)
    | some .braceOpen => do
      drop
      return .mapping anchor (← members true fuel)
    | some .item => do
      if canDash then return .sequence anchor (← dashes fuel)
      bare anchor tag
    | some .sequenceBegin => do
      if canBlock then
        drop
        return .sequence anchor (← blockItems fuel)
      bare anchor tag
    | some .mappingBegin => do
      if canBlock then
        drop
        return .mapping anchor (← blockMembers fuel)
      bare anchor tag
    | _ => bare anchor tag

/-- A value, or nothing where one of these words is the next. -/
def nodeBefore (ends : List Token) (canBlock canDash : Bool) : (fuel : Nat) → Read Node
  | 0 => failure
  | fuel + 1 => do
    if ← isAt ends then return .nothing
    node canBlock canDash fuel

/-- The items of a block. -/
def blockItems : (fuel : Nat) → Read (List Node)
  | 0 => failure
  | fuel + 1 => do
    if ← drop? .blockEnd then return []
    expect .item
    let item ← nodeBefore [.item, .blockEnd] true false fuel
    return item :: (← blockItems fuel)

/-- Items without a block of their own, which end where something else comes. -/
def dashes : (fuel : Nat) → Read (List Node)
  | 0 => failure
  | fuel + 1 => do
    unless ← drop? .item do return []
    let item ← nodeBefore [.item, .key, .value, .blockEnd] true false fuel
    return item :: (← dashes fuel)

/-- The members of a block. -/
def blockMembers : (fuel : Nat) → Read (List (Node × Node))
  | 0 => failure
  | fuel + 1 => do
    if ← drop? .blockEnd then return []
    expect .key
    let key ← nodeBefore [.key, .value, .blockEnd] true true fuel
    let value ← if ← drop? .value then nodeBefore [.key, .value, .blockEnd] true true fuel
      else pure .nothing
    return (key, value) :: (← blockMembers fuel)

/-- The items up to the closing bracket; before all but the first there is a comma. An item can be a
mapping of one key, and a question mark without a key takes the sign behind it away. -/
def items (isFirst : Bool) : (fuel : Nat) → Read (List Node)
  | 0 => failure
  | fuel + 1 => do
    if ← drop? .bracketClose then return []
    unless isFirst do
      expect .comma
      if ← drop? .bracketClose then return []
    unless ← drop? .key do
      let item ← node false false fuel
      return item :: (← items false fuel)
    let key ← if ← isAt [.value, .comma, .bracketClose] then drop *> pure .nothing
      else node false false fuel
    let value ← if ← drop? .value then nodeBefore [.comma, .bracketClose] false false fuel
      else pure .nothing
    return .mapping none [(key, value)] :: (← items false fuel)

/-- The members up to the closing brace; before all but the first there is a comma. -/
def members (isFirst : Bool) : (fuel : Nat) → Read (List (Node × Node))
  | 0 => failure
  | fuel + 1 => do
    if ← drop? .braceClose then return []
    unless isFirst do
      expect .comma
      if ← drop? .braceClose then return []
    unless ← drop? .key do
      let key ← node false false fuel
      return (key, .nothing) :: (← members false fuel)
    let key ← nodeBefore [.value, .comma, .braceClose] false false fuel
    let value ← if ← drop? .value then nodeBefore [.comma, .braceClose] false false fuel
      else pure .nothing
    return (key, value) :: (← members false fuel)

end

/-! ## Documents -/

/-- What handles of tags stand for after these directives, if they are in order: one version at most
and one that is known, and no handle twice. -/
def handlesOf? (ds : List Directive) : Option (List (String × List UInt8)) :=
  let versions := ds.filterMap fun
    | .version major minor => some (major, minor)
    | _ => none
  let handles := ds.filterMap fun
    | .handle name beginning => some (name, beginning)
    | _ => none
  let isKnown := versions.isEmpty || versions = [(1, 1)] || versions = [(1, 2)]
  if isKnown && (handles.map Prod.fst).Nodup then some (handles ++ Tag.standardHandles) else none

/-- The directives here. -/
def directives : (fuel : Nat) → Read (List Directive)
  | 0 => failure
  | fuel + 1 => do
    match ← peek? with
    | some (.directive d) => do
      drop
      return d :: (← directives fuel)
    | _ => return []

/-- A document and the ends of documents after it. Behind directives it has to begin with a mark. -/
def document (fuel : Nat) : Read Node := do
  let ds ← directives fuel
  let handles ← (handlesOf? ds : Option _)
  modify fun r => { r with handles }
  let isMarked ← drop? .documentBegin
  guard (isMarked || ds.isEmpty)
  let next ← peek?
  let root ←
    if isMarked && (next.isNone || next = some .documentBegin || next = some .documentEnd) then
      pure .nothing
    else node true false fuel
  guard ((← get).words.all (· == .documentEnd))
  return root

end Read

/-- Whether a character can be in a text in YAML. -/
def isAllowed (c : Char) : Bool :=
  c ∈ ['\t', '\n', '\r', '\u0085'] || (' ' ≤ c && c ≤ '~') || ('\u00a0' ≤ c && c ≤ '\ufffd') ||
    '\uffff' < c

/-- The characters with one way to end a line. -/
def withLines : List Char → List Char
  | '\r' :: '\n' :: rest => '\n' :: withLines rest
  | c :: rest => (if c ∈ ['\r', '\u0085', '\u2028', '\u2029'] then '\n' else c) :: withLines rest
  | [] => []

/-- The value of a text in YAML. -/
def read? (text : String) : Option Node := do
  let cs := text.toList
  guard (cs.all isAllowed)
  let words ← tokens? (withLines cs)
  if words.isEmpty then return .nothing
  let (root, _) ← (Read.document (4 * words.length + 4)).run ⟨words, [], []⟩
  return root

end RowGraph.Yaml
