/-!
# Decimal text of integers

Writing with a least number of digits, and reading digits with and without a sign.
-/

namespace RowGraph.Text

/-- The number in at least `width` decimal digits, zeros in front. -/
def padded (width n : Nat) : String :=
  let digits := Nat.toDigits 10 n
  .ofList (List.replicate (width - digits.length) '0' ++ digits)

/-- The decimal text of an integer, a minus sign in front of a negative one. -/
def ofInt (i : Int) : String :=
  if i < 0 then "-" ++ Nat.repr i.natAbs else Nat.repr i.natAbs

/-- The value of an ASCII digit. -/
def digitValue? (c : Char) : Option Nat :=
  if c.isDigit then some (c.toNat - '0'.toNat) else none

/-- The number written by decimal digits, `none` when some character is no ASCII digit. The empty
text counts as zero. -/
def digitsNumber? (cs : List Char) : Option Nat :=
  cs.foldlM (fun n c => (digitValue? c).map (10 * n + ·)) 0

/-- How reading an integer can fail. -/
inductive IntegerFault
  | empty
  | invalidDigit
  | tooLarge
  | tooSmall
deriving DecidableEq, Repr

/-- The wording of a fault. -/
def IntegerFault.message : IntegerFault → String
  | .empty => "cannot parse integer from empty string"
  | .invalidDigit => "invalid digit found in string"
  | .tooLarge => "number too large to fit in target type"
  | .tooSmall => "number too small to fit in target type"

/-- A natural number of at most `max`, with an optional plus sign. A digit that is none is found
before the size of the number is looked at up to that digit. -/
def readNat (max : Nat) (s : String) : Except IntegerFault Nat :=
  match s.toList with
  | [] => .error .empty
  | ['+'] | ['-'] => .error .invalidDigit
  | cs =>
    let digits := match cs with
      | '+' :: rest => rest
      | _ => cs
    digits.foldlM (fun n c =>
      match digitValue? c with
      | none => .error .invalidDigit
      | some d => if 10 * n + d ≤ max then .ok (10 * n + d) else .error .tooLarge) 0

/-- An integer between `min` and `max`, with an optional sign. -/
def readInt? (min max : Int) (s : String) : Option Int :=
  let (negative, digits) := match s.toList with
    | '-' :: rest => (true, rest)
    | '+' :: rest => (false, rest)
    | cs => (false, cs)
  match digits, digitsNumber? digits with
  | [], _ => none
  | _, none => none
  | _, some n =>
    let i : Int := if negative then -n else n
    if min ≤ i ∧ i ≤ max then some i else none

end RowGraph.Text
