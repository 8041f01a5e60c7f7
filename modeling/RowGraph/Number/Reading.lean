import RowGraph.Number.Binary64
import RowGraph.Text.Decimal

/-!
# Reading floating-point text

A number is an optional sign, digits with an optional point among or around them, and an optional
exponent; `inf`, `infinity` and `nan` are read in any case. The value is the number of the format
nearest to the decimal written.

Modelled: how a text is read as a number.
-/

namespace RowGraph

/-- A decimal as written: `digits * 10 ^ exponent`. -/
structure Decimal where
  digits : Nat
  exponent : Int
deriving DecidableEq, Repr

/-- The count of decimal digits. -/
def digitCount (n : Nat) : Nat := (Nat.toDigits 10 n).length

/-- The exact quotient of a decimal. -/
def Decimal.ratio (d : Decimal) : Nat × Nat :=
  if 0 ≤ d.exponent then (d.digits * Nat.pow 10 d.exponent.toNat, 1)
  else (d.digits, Nat.pow 10 (-d.exponent).toNat)

/-- The exact quotient, with decimals far outside every format brought to its edge first: nothing
below `10 ^ (-400)` is told from zero, nothing above `10 ^ 400` from `10 ^ 400`. -/
def Decimal.boundedRatio (d : Decimal) : Nat × Nat :=
  let size := d.exponent + digitCount d.digits
  if d.digits = 0 || size < -400 then (0, 1)
  else if 400 < size then (Nat.pow 10 400, 1)
  else d.ratio

/-- The digits and the point of an unsigned decimal, `none` unless there is a digit. -/
def Decimal.readMantissa? (cs : List Char) : Option (Decimal × List Char) :=
  let whole := cs.takeWhile Char.isDigit
  let rest := cs.dropWhile Char.isDigit
  let (fraction, rest) := match rest with
    | '.' :: more => (more.takeWhile Char.isDigit, more.dropWhile Char.isDigit)
    | _ => ([], rest)
  match whole ++ fraction with
  | [] => none
  | digits => (Text.digitsNumber? digits).map fun n => (⟨n, -(fraction.length : Int)⟩, rest)

/-- The exponent after a mantissa: nothing, or a letter, an optional sign and digits. -/
def Decimal.readExponent? : List Char → Option Int
  | [] => some 0
  | c :: rest =>
    if c = 'e' || c = 'E' then
      match rest with
      | '-' :: d :: ds => (Text.digitsNumber? (d :: ds)).map fun n => -(n : Int)
      | '+' :: d :: ds => (Text.digitsNumber? (d :: ds)).map fun n => (n : Int)
      | d :: ds => (Text.digitsNumber? (d :: ds)).map fun n => (n : Int)
      | [] => none
    else none

/-- An unsigned decimal that takes up all the characters. -/
def Decimal.read? (cs : List Char) : Option Decimal := do
  let (mantissa, rest) ← readMantissa? cs
  let exponent ← readExponent? rest
  return ⟨mantissa.digits, mantissa.exponent + exponent⟩

namespace Binary64

/-- The number of a format nearest to a decimal, as a number of 64 bits. -/
def ofDecimal (f : Format) (negative : Bool) (d : Decimal) : Binary64 :=
  let (num, den) := d.boundedRatio
  if num = 0 then zero negative
  else
    let (mantissa, exponent) := f.nearest num den
    if f.top < exponent then .infinite negative
    else
      ofRatio negative (mantissa * Nat.pow 2 (exponent - f.bias)) (Nat.pow 2 (f.bias - exponent))

/-- The number of a format that a text writes. -/
def read? (f : Format) (s : String) : Option Binary64 :=
  let (negative, cs) := match s.toList with
    | '-' :: rest => (true, rest)
    | '+' :: rest => (false, rest)
    | cs => (false, cs)
  match String.ofList (cs.map Char.toLower) with
  | "inf" | "infinity" => some (.infinite negative)
  | "nan" => some .nan
  | _ => (Decimal.read? cs).map (ofDecimal f negative)

end Binary64

end RowGraph
