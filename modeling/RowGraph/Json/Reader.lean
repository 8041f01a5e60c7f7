import RowGraph.Json.Basic

/-!
# Reading JSON text

`Json.read?` accepts exactly the JSON grammar, with arrays and objects nested less than 128 deep.
An object keeps every member as written, repeated names included; `Json.settled` merges them.

A number with a fraction, an exponent or too many digits becomes a floating-point number in the
following way, which is the nearest number for short decimals only: as many digits as fit into
sixty-four bits are taken as an integer, the rest only move the point, and the integer is multiplied
or divided by a power of ten. A number too large is no number.

Modelled: how a text is read as JSON where settings or values are given in it.

Left out: reading from a stream, and where in the text a mistake is.
-/

namespace RowGraph.Json

/-- Whether the character is a blank of the grammar. -/
def isSpace (c : Char) : Bool := c = ' ' || c = '\n' || c = '\t' || c = '\r'

/-- The characters from the first one that is no blank. -/
def skipSpaces (cs : List Char) : List Char := cs.dropWhile isSpace

/-- The number written by four hexadecimal digits. -/
def fourDigits : List Char → Option (Nat × List Char)
  | a :: b :: c :: d :: rest => (Text.hexNumber? [a, b, c, d]).map fun n => (n, rest)
  | _ => none

theorem fourDigits_shorter {cs rest : List Char} {n : Nat} (h : fourDigits cs = some (n, rest)) :
    rest.length < cs.length := by
  unfold fourDigits at h
  split at h
  · simp only [Option.map_eq_some_iff, Prod.mk.injEq] at h
    obtain ⟨_, _, _, rfl⟩ := h
    simp; omega
  · simp at h

/-- The character of an escape with four digits, two of them for a character beyond the first
plane. -/
def unicodeEscape (cs : List Char) : Option (Char × List Char) := do
  let (n, rest) ← fourDigits cs
  if 0xd800 ≤ n ∧ n ≤ 0xdbff then
    match rest with
    | '\\' :: 'u' :: more =>
      let (low, rest) ← fourDigits more
      if 0xdc00 ≤ low ∧ low ≤ 0xdfff then
        some (Char.ofNat (0x10000 + (n - 0xd800) * 0x400 + (low - 0xdc00)), rest)
      else none
    | _ => none
  else if 0xdc00 ≤ n ∧ n ≤ 0xdfff then none
  else some (Char.ofNat n, rest)

/-- The character that a backslash and this character stand for. -/
def simpleEscape? : Char → Option Char
  | '"' => some '"'
  | '\\' => some '\\'
  | '/' => some '/'
  | 'b' => some '\x08'
  | 'f' => some '\x0c'
  | 'n' => some '\n'
  | 'r' => some '\r'
  | 't' => some '\t'
  | _ => none

/-- The characters up to the closing quote, those read so far in reverse. -/
def quotedChars : (fuel : Nat) → (done : List Char) → List Char → Option (String × List Char)
  | 0, _, _ => none
  | fuel + 1, done, cs =>
    match cs with
    | [] => none
    | '"' :: rest => some (.ofList done.reverse, rest)
    | '\\' :: 'u' :: rest => do
      let (c, rest) ← unicodeEscape rest
      quotedChars fuel (c :: done) rest
    | '\\' :: e :: rest => do
      let c ← simpleEscape? e
      quotedChars fuel (c :: done) rest
    | c :: rest => if c.toNat < 0x20 || c = '\\' then none else quotedChars fuel (c :: done) rest

/-- A text after its opening quote. -/
def text (cs : List Char) : Option (String × List Char) := quotedChars (cs.length + 1) [] cs

/-! ## Numbers -/

/-- The digits taken into a number of at most sixty-four bits: the number, how many digits it took,
and the digits left over. -/
def takeDigits (n : Nat) (taken : Nat) : List Char → Nat × Nat × List Char
  | [] => (n, taken, [])
  | c :: rest =>
    let next := 10 * n + (c.toNat - '0'.toNat)
    if next < UInt64.size then takeDigits next (taken + 1) rest else (n, taken, c :: rest)

/-- A power of ten as a floating-point number. -/
def powerOfTen (k : Nat) : Binary64 := .ofDecimal .double false ⟨1, k⟩

/-- `x * 10 ^ exponent` by at most `fuel` divisions by `10 ^ 308` and one more step; `none` when it
is too large. -/
def scale : (fuel : Nat) → Binary64 → Int → Option Binary64
  | 0, x, _ => some x
  | fuel + 1, x, exponent =>
    if exponent.natAbs ≤ 308 then
      if 0 ≤ exponent then
        let y := x.times (powerOfTen exponent.natAbs)
        if y.isFinite then some y else none
      else some (x.dividedBy (powerOfTen exponent.natAbs))
    else if x.isZero then some x
    else if 0 ≤ exponent then none
    else scale fuel (x.dividedBy (powerOfTen 308)) (exponent + 308)

/-- The floating-point number of an integer and a power of ten, with a sign. Four divisions by
`10 ^ 308` make a number of sixty-four bits zero. -/
def assemble (negative : Bool) (n : Nat) (exponent : Int) : Option Json :=
  (scale 8 (.ofInt n) exponent).map fun x => .float (if negative then x.negate else x)

/-- The exponent after its letter, added to `start`, and the number. -/
def withExponent (negative : Bool) (n : Nat) (start : Int) (cs : List Char) :
    Option (Json × List Char) :=
  let (minus, cs) := match cs with
    | '+' :: rest => (false, rest)
    | '-' :: rest => (true, rest)
    | _ => (false, cs)
  let digits := cs.takeWhile Char.isDigit
  let rest := cs.drop digits.length
  match digits, Text.digitsNumber? digits with
  | [], _ | _, none => none
  | _, some e =>
    if Int32.maxValue.toInt < e then
      if n ≠ 0 ∧ !minus then none else some (.float (.zero negative), rest)
    else (assemble negative n (if minus then start - e else start + e)).map (·, rest)

/-- The fraction after its point, and the number. -/
def withFraction (negative : Bool) (n : Nat) (start : Int) (cs : List Char) :
    Option (Json × List Char) :=
  let digits := cs.takeWhile Char.isDigit
  let rest := cs.drop digits.length
  let (n, taken, _) := takeDigits n 0 digits
  if digits.isEmpty then none
  else
    match rest with
    | c :: more =>
      if c = 'e' || c = 'E' then withExponent negative n (start - taken) more
      else (assemble negative n (start - taken)).map (·, rest)
    | [] => (assemble negative n (start - taken)).map (·, rest)

/-- A number after its sign. -/
def number (negative : Bool) (cs : List Char) : Option (Json × List Char) :=
  let digits := cs.takeWhile Char.isDigit
  let rest := cs.drop digits.length
  match digits with
  | [] | '0' :: _ :: _ => none
  | _ =>
    let (n, _, left) := takeDigits 0 0 digits
    let whole : Option (Json × List Char) :=
      if !left.isEmpty then (assemble negative n left.length).map (·, rest)
      else if !negative then some (.integer n, rest)
      else if n = 0 ∨ -(n : Int) < Int64.minValue.toInt then
        some (.float (Binary64.ofInt n).negate, rest)
      else some (.integer (-n), rest)
    match rest with
    | c :: more =>
      if c = '.' then withFraction negative n left.length more
      else if c = 'e' || c = 'E' then withExponent negative n left.length more
      else whole
    | [] => whole

/-! ## Values -/

/-- The rest after a word. -/
def word (w : String) (value : Json) (cs : List Char) : Option (Json × List Char) :=
  if w.toList.isPrefixOf cs then some (value, cs.drop w.length) else none

mutual

/-- A value, in arrays and objects of at most `depth` further levels. -/
def value : (fuel depth : Nat) → List Char → Option (Json × List Char)
  | 0, _, _ => none
  | fuel + 1, depth, cs =>
    match skipSpaces cs with
    | [] => none
    | '"' :: rest => (text rest).map fun (s, rest) => (.string s, rest)
    | '[' :: rest =>
      if depth ≤ 1 then none
      else match skipSpaces rest with
        | ']' :: rest => some (.array [], rest)
        | rest => (items fuel (depth - 1) rest).map fun (l, rest) => (.array l, rest)
    | '{' :: rest =>
      if depth ≤ 1 then none
      else match skipSpaces rest with
        | '}' :: rest => some (.object [], rest)
        | rest => (members fuel (depth - 1) rest).map fun (l, rest) => (.object l, rest)
    | '-' :: rest => number true rest
    | c :: rest =>
      if c.isDigit then number false (c :: rest)
      else if c = 'n' then word "null" .null (c :: rest)
      else if c = 't' then word "true" (.bool true) (c :: rest)
      else if c = 'f' then word "false" (.bool false) (c :: rest)
      else none

/-- The items of an array up to its bracket. -/
def items : (fuel depth : Nat) → List Char → Option (List Json × List Char)
  | 0, _, _ => none
  | fuel + 1, depth, cs => do
    let (item, rest) ← value fuel depth cs
    match skipSpaces rest with
    | ',' :: rest =>
      let (more, rest) ← items fuel depth rest
      some (item :: more, rest)
    | ']' :: rest => some ([item], rest)
    | _ => none

/-- The members of an object up to its brace. -/
def members : (fuel depth : Nat) → List Char → Option (List (String × Json) × List Char)
  | 0, _, _ => none
  | fuel + 1, depth, cs =>
    match skipSpaces cs with
    | '"' :: rest => do
      let (name, rest) ← text rest
      match skipSpaces rest with
      | ':' :: rest =>
        let (item, rest) ← value fuel depth rest
        match skipSpaces rest with
        | ',' :: rest =>
          let (more, rest) ← members fuel depth rest
          some ((name, item) :: more, rest)
        | '}' :: rest => some ([(name, item)], rest)
        | _ => none
      | _ => none
    | _ => none

end

/-- The value that a text writes, `none` when it is no JSON text. -/
def read? (s : String) : Option Json := do
  let cs := s.toList
  let (json, rest) ← value (2 * cs.length + 2) 128 cs
  if (skipSpaces rest).isEmpty then some json else none

end RowGraph.Json
