import RowGraph.Yaml.Tag

/-!
# Scalars in YAML

A scalar keeps its text, the way in which it is written and its tag. Only a plain scalar is read as
a truth value or a number, or a literal block whose tag says so; quotes always make a text.

Main statements: `asNat?_quoted` and `asBool?_quoted`.
-/

namespace RowGraph

namespace Text

/-- The value of a digit in bases up to sixteen. -/
def digitIn? (base : Nat) (c : Char) : Option Nat := (hexValue? c).filter (· < base)

/-- The number written by these digits, of which there has to be one. -/
def numberIn? (base : Nat) : List Char → Option Nat
  | [] => none
  | cs => cs.foldlM (fun n c => (digitIn? base c).map (base * n + ·)) 0

end Text

namespace Yaml

/-- The ways to write a scalar. -/
inductive Style
  | plain
  | quoted
  /-- A block whose lines are kept. -/
  | literal
  /-- A block whose lines are joined. -/
  | folded
deriving DecidableEq, Repr

/-- A single value. -/
structure Scalar where
  style : Style
  tag : Option Tag
  text : String
deriving DecidableEq, Repr

namespace Scalar

/-- What stands where nothing is written. -/
def nothing : Scalar := ⟨.plain, none, ""⟩

/-- Whether the scalar is plain and has no text. -/
def isNothing (s : Scalar) : Bool := s.style = .plain && s.text.isEmpty

/-- Whether the text can be read as a value of this type. -/
def canBe (type : Tag) (s : Scalar) : Bool :=
  s.style = .plain || (s.style = .literal && s.tag = some type)

/-- The truth value that a scalar is. -/
def asBool? (s : Scalar) : Option Bool := do
  guard (s.canBe .bool)
  if s.text ∈ ["true", "True", "TRUE"] then some true
  else if s.text ∈ ["false", "False", "FALSE"] then some false
  else none

/-- The natural number of digits, which may name a base; decimal digits do not start with a zero. -/
def natOfDigits? : List Char → Option Nat
  | '0' :: 'x' :: digits => Text.numberIn? 16 digits
  | '0' :: 'o' :: digits => Text.numberIn? 8 digits
  | '0' :: 'b' :: digits => Text.numberIn? 2 digits
  | ['0'] => some 0
  | '0' :: _ => none
  | digits => Text.numberIn? 10 digits

/-- The natural number of sixty-four bits that a scalar is. It may have a plus sign. -/
def asNat? (s : Scalar) : Option Nat := do
  guard (s.canBe .int)
  let n ← natOfDigits? (match s.text.toList with
    | '+' :: digits => digits
    | digits => digits)
  guard (n < UInt64.size)
  return n

/-! ## Laws -/

/-- Quotes make a text. -/
theorem asNat?_quoted (tag : Option Tag) (text : String) :
    asNat? ⟨.quoted, tag, text⟩ = none := by
  cases tag <;> rfl

theorem asBool?_quoted (tag : Option Tag) (text : String) :
    asBool? ⟨.quoted, tag, text⟩ = none := by
  cases tag <;> rfl

end Scalar

end Yaml

end RowGraph
