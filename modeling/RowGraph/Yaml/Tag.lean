import RowGraph.Text.Hex
import RowGraph.Yaml.Cursor

/-!
# Tags and directives in YAML

A tag names the type of a value. It is written in full between angles, or as a short handle with an
ending; a directive before a document says what a handle stands for. Tags are read as octets, as a
percent sign and two digits write an octet, and not every octet is a character.
-/

namespace RowGraph.Yaml

/-- Whether a character can be in a handle or in the name of an anchor or a directive. -/
def isWord (c : Char) : Bool := c.isAlphanum || c = '_' || c = '-'

/-- The full name of a type. -/
structure Tag where
  octets : List UInt8
deriving DecidableEq, Repr

namespace Tag

/-- The tag that a text names. -/
def ofString (s : String) : Tag := ⟨s.toUTF8.toList⟩

/-- The tag that names no type. -/
def nonSpecific : Tag := ofString "!"

/-- Truth values. -/
def bool : Tag := ofString "tag:yaml.org,2002:bool"

/-- Whole numbers. -/
def int : Tag := ofString "tag:yaml.org,2002:int"

/-- How many octets of a character follow its first one. -/
def following? (first : Nat) : Option Nat :=
  if first < 128 then some 0
  else if first < 192 then none
  else if first < 224 then some 1
  else if first < 240 then some 2
  else if first < 248 then some 3
  else none

/-- Whether a character can be in a tag; some can only be between angles and in directives. -/
def isUri (isFull : Bool) (c : Char) : Bool :=
  isWord c || c ∈ ";/?:@&=+$.!~*'()".toList || (isFull && c ∈ [',', '[', ']'])

/-- The octets of a tag and the characters after it, when `missing` octets of a character that is
written by numbers are still to come. -/
def octetsFrom (isFull : Bool) : (missing : Nat) → List Char → Option (List UInt8 × List Char)
  | missing, '%' :: a :: b :: rest => do
    let n ← Text.hexNumber? [a, b]
    let missing ← match missing with
      | 0 => following? n
      | missing + 1 => if 128 ≤ n ∧ n < 192 then some missing else none
    let (more, after) ← octetsFrom isFull missing rest
    return (UInt8.ofNat n :: more, after)
  | 0, c :: rest =>
    if c = '%' then none
    else if isUri isFull c then do
      let (more, after) ← octetsFrom isFull 0 rest
      return (UInt8.ofNat c.toNat :: more, after)
    else some ([], c :: rest)
  | 0, [] => some ([], [])
  | _ + 1, _ => none

/-- The octets of a tag and the characters after it. A zero ends the octets. -/
def octets? (isFull mayBeEmpty : Bool) (cs : List Char) : Option (List UInt8 × List Char) := do
  let (octets, rest) ← octetsFrom isFull 0 cs
  guard (mayBeEmpty || !octets.isEmpty)
  return (octets.takeWhile (· ≠ 0), rest)

/-- The handle of two exclamation marks that these characters begin with, and what follows it. -/
def handle? : List Char → Option (String × List Char)
  | '!' :: rest =>
    match rest.dropWhile isWord with
    | '!' :: after => some ("!" ++ .ofList (rest.takeWhile isWord) ++ "!", after)
    | _ => none
  | _ => none

/-- A tag as it is written: what its handle stands for has to be looked up. -/
structure Written where
  handle : Option String
  ending : List UInt8
deriving DecidableEq, Repr

namespace Written

/-- The tag between angles. -/
def full? (cs : List Char) : Option (Written × List Char) := do
  let (octets, rest) ← octets? true false cs
  guard (rest.head? = some '>')
  return (⟨none, octets⟩, rest.drop 1)

/-- The tag behind one exclamation mark; where nothing follows, the mark itself is the tag. -/
def local? (cs : List Char) : Option (Written × List Char) := do
  let (octets, rest) ← octets? false true cs
  return (if octets.isEmpty then ⟨none, nonSpecific.octets⟩ else ⟨some "!", octets⟩, rest)

/-- The tag behind a handle. -/
def short? (handle : String) (cs : List Char) : Option (Written × List Char) := do
  let (octets, rest) ← octets? false false cs
  return (⟨some handle, octets⟩, rest)

/-- The tag that these characters begin with, and what follows it. -/
def read? (inBrackets : Bool) (cs : List Char) : Option (Written × List Char) := do
  let (tag, rest) ←
    match cs, handle? cs with
    | '!' :: '<' :: rest, _ => full? rest
    | _, some (handle, rest) => short? handle rest
    | _, none => local? (cs.drop 1)
  guard (endsWord rest || (inBrackets && rest.head? = some ','))
  return (tag, rest)

/-- The tag when handles stand for these beginnings. -/
def resolve? (handles : List (String × List UInt8)) (w : Written) : Option Tag :=
  match w.handle with
  | none => some ⟨w.ending⟩
  | some handle => (handles.lookup handle).map fun beginning => ⟨beginning ++ w.ending⟩

end Written

/-- What handles stand for when nothing is said. -/
def standardHandles : List (String × List UInt8) :=
  [("!", (ofString "!").octets), ("!!", (ofString "tag:yaml.org,2002:").octets)]

end Tag

/-! ## Directives -/

/-- What can be said before a document. -/
inductive Directive
  | version (major minor : Nat)
  | handle (name : String) (beginning : List UInt8)
deriving DecidableEq, Repr

namespace Directive

/-- A number of a version, and the characters after it. -/
def number? (cs : List Char) : Option (Nat × List Char) :=
  let digits := cs.takeWhile Char.isDigit
  if 1 ≤ digits.length && digits.length ≤ 9 then
    some (digits.foldl (fun n d => 10 * n + (d.toNat - '0'.toNat)) 0, cs.drop digits.length)
  else none

/-- What follows the name of a directive, and the characters after it. -/
def value? (name : String) (cs : List Char) : Option (Directive × List Char) :=
  let cs := cs.dropWhile isBlank
  match name with
  | "YAML" => do
    let (major, rest) ← number? cs
    guard (rest.head? = some '.')
    let (minor, rest) ← number? (rest.drop 1)
    return (.version major minor, rest)
  | "TAG" => do
    let (short, rest) ← match Tag.handle? cs, cs with
      | some found, _ => some found
      | none, '!' :: rest => some ("!", rest)
      | none, _ => none
    guard (rest.head?.any isBlank)
    let (octets, rest) ← Tag.octets? true false (rest.dropWhile isBlank)
    guard (endsWord rest)
    return (.handle short octets, rest)
  | _ => none

/-- The directive behind a percent sign, and the characters after its line. -/
def read? (cs : List Char) : Option (Directive × List Char) := do
  let name := cs.takeWhile isWord
  guard (!name.isEmpty && endsWord (cs.drop name.length))
  let (directive, rest) ← value? (.ofList name) (cs.drop name.length)
  let rest := rest.dropWhile isBlank
  let rest := if rest.head? = some '#' then rest.dropWhile (· ≠ '\n') else rest
  guard (rest.isEmpty || rest.head? = some '\n')
  return (directive, rest.drop 1)

end Directive

end RowGraph.Yaml
