import RowGraph.Text.Hex
import RowGraph.Yaml.Folding

/-!
# Quoted scalars

A scalar in quotes goes on to the closing quote, over lines of any indentation, but not over the
mark of a document. In single quotes a quote is written twice; in double quotes a backslash begins
an escape, and at the end of a line it joins the next one without a space.

Main statement: `escape?_numbered` (an escape by number is read as its character).
-/

namespace RowGraph.Yaml.Quoted

/-- The character that an escape of one letter stands for. -/
def letter? : Char → Option Char
  | '0' => some '\x00'
  | 'a' => some '\x07'
  | 'b' => some '\x08'
  | 't' | '\t' => some '\t'
  | 'n' => some '\n'
  | 'v' => some '\x0b'
  | 'f' => some '\x0c'
  | 'r' => some '\r'
  | 'e' => some '\x1b'
  | ' ' => some ' '
  | '"' => some '"'
  | '/' => some '/'
  | '\\' => some '\\'
  | 'N' => some '\u0085'
  | '_' => some '\u00a0'
  | 'L' => some '\u2028'
  | 'P' => some '\u2029'
  | _ => none

/-- How many digits an escape by number has. -/
def digitCount? : Char → Option Nat
  | 'x' => some 2
  | 'u' => some 4
  | 'U' => some 8
  | _ => none

/-- The character of a number, unless the number is none of a character. -/
def charOf? (n : Nat) : Option Char := if n.isValidChar then some (Char.ofNat n) else none

/-- The character that an escape stands for, and what follows it. -/
def escape? : List Char → Option (Char × List Char)
  | [] => none
  | c :: rest =>
    match digitCount? c with
    | some count => do
      guard (count ≤ rest.length)
      let c ← charOf? (← Text.hexNumber? (rest.take count))
      return (c, rest.drop count)
    | none => (letter? c).map (·, rest)

/-- The text up to the closing quote, and what follows it. -/
def readFrom (isDouble : Bool) : (fuel : Nat) → List Char → Option (List Char × List Char)
  | 0, _ => none
  | _, [] => none
  | fuel + 1, c :: rest =>
    let go (text rest : List Char) := (readFrom isDouble fuel rest).map fun (more, after) =>
      (text ++ more, after)
    if isGap c then do
      let (gap, column, after) ← Gap.readFrom 0 0 1 (c :: rest)
      guard !(column = 0 && beginsMark after)
      go gap.text after
    else if isDouble then
      match c, rest with
      | '"', _ => some ([], rest)
      | '\\', '\n' :: rest => do
        let (gap, column, after) ← Gap.readFrom 0 0 0 rest
        guard !(column = 0 && beginsMark after)
        go (List.replicate gap.breaks '\n') after
      | '\\', _ => do
        let (d, after) ← escape? rest
        go [d] after
      | _, _ => go [c] rest
    else
      match c, rest with
      | '\'', '\'' :: rest => go [c] rest
      | '\'', _ => some ([], rest)
      | _, _ => go [c] rest

/-- The scalar in quotes here, and the place after it. -/
def read? (c : Cursor) : Option (String × Cursor) := do
  let (text, rest) ← readFrom (c.rest.head? = some '"') (c.rest.length + 1) (c.rest.drop 1)
  return (.ofList text, c.moveTo rest)

/-! ## Laws -/

theorem charOf?_toNat (c : Char) : charOf? c.toNat = some c := by
  have h : c.toNat.isValidChar := c.valid
  simp [charOf?, h]

/-- Eight hexadecimal digits write every character. -/
theorem escape?_numbered (c : Char) (rest : List Char) :
    escape? ('U' :: (Text.hexDigits 8 c.toNat ++ rest)) = some (c, rest) := by
  have small : c.toNat < Nat.pow 16 8 := Nat.lt_of_lt_of_le c.val.toNat_lt (by decide)
  have whole : Text.hexNumber? (Text.hexDigits 8 c.toNat) = some c.toNat := by
    rw [Text.hexNumber?_hexDigits, Nat.mod_eq_of_lt small]
  have length : (Text.hexDigits 8 c.toNat).length = 8 := Text.length_hexDigits ..
  have enough : (guard (8 ≤ (Text.hexDigits 8 c.toNat ++ rest).length) : Option Unit) = some () :=
    if_pos (by rw [List.length_append, length]; exact Nat.le_add_right 8 _)
  have taken : (Text.hexDigits 8 c.toNat ++ rest).take 8 = Text.hexDigits 8 c.toNat :=
    List.take_left' length
  have left : (Text.hexDigits 8 c.toNat ++ rest).drop 8 = rest :=
    List.drop_left' length
  change (guard _ >>= fun _ => Text.hexNumber? _ >>= fun n => charOf? n >>= fun c =>
    pure (c, List.drop 8 _)) = _
  rw [enough, taken, whole, left]
  change (charOf? c.toNat >>= fun c => pure (c, rest)) = _
  rw [charOf?_toNat]
  rfl

end RowGraph.Yaml.Quoted
