import RowGraph.Number.Reading

/-!
# The shortest decimal of a floating-point number

Of the decimals that round to a number, the shortest is the one with the coarsest decimal grid, and
of two on that grid the nearer one. The search goes from a grid too coarse for the number to finer
ones and tests on each grid the two neighbours of the number, in natural numbers.

Three ways to write it are used: plain positional digits, the digits of a JSON number, and the text
of a number inside a description of a value. They are values of one record, `FloatStyle`.

Modelled: how a number is written as a text: plain, in JSON and in the description of a value.
-/

namespace RowGraph

/-- Which of two equally near decimals is taken. -/
inductive Tie
  | up
  | toEven
deriving DecidableEq, Repr

/-- The numbers that round to a finite one: `low / den` to `high / den`, and `mid / den` is the
number itself. The ends belong to it when `closed`. -/
structure RoundingInterval where
  low : Nat
  mid : Nat
  high : Nat
  den : Nat
  closed : Bool
deriving DecidableEq, Repr

/-- The interval of a positive number, in quarters of its unit. Below a power of two the neighbours
are twice as close. -/
def RoundingInterval.of (mantissa exponent : Nat) : RoundingInterval :=
  let scale := Nat.pow 2 (exponent - 1076)
  let below := if mantissa = Nat.pow 2 52 && 0 < exponent then 1 else 2
  { low := (4 * mantissa - below) * scale
    mid := 4 * mantissa * scale
    high := (4 * mantissa + 2) * scale
    den := Nat.pow 2 (1076 - exponent)
    closed := mantissa % 2 == 0 }

/-- Whether `digits * 10 ^ k` lies in the interval. -/
def RoundingInterval.holds (r : RoundingInterval) (d : Decimal) : Bool :=
  let (num, den) := d.ratio
  if r.closed then r.low * den ≤ num * r.den && num * r.den ≤ r.high * den
  else r.low * den < num * r.den && num * r.den < r.high * den

/-- The neighbour of the number on the grid of `10 ^ k` that lies in the interval, the nearer one if
both do. -/
def RoundingInterval.onGrid? (tie : Tie) (r : RoundingInterval) (k : Int) : Option Decimal :=
  let num := if k < 0 then r.mid * Nat.pow 10 (-k).toNat else r.mid
  let den := if k < 0 then r.den else r.den * Nat.pow 10 k.toNat
  let floor := num / den
  let rest := 2 * (num % den)
  let down : Decimal := ⟨floor, k⟩
  let up : Decimal := ⟨floor + 1, k⟩
  match r.holds down, r.holds up with
  | false, false => none
  | true, false => some down
  | false, true => some up
  | true, true =>
    if rest < den then some down
    else if den < rest then some up
    else match tie with
      | .up => some up
      | .toEven => if floor % 2 = 0 then some down else some up

/-- The decimal order of magnitude from which the search starts, above the number's own. -/
def RoundingInterval.start (r : RoundingInterval) : Int :=
  if r.den ≤ r.mid then digitCount (r.mid / r.den) + 1
  else 2 - (digitCount (r.den / r.mid) : Int)

/-- The shortest decimal of a positive number. -/
def shortestDecimal (tie : Tie) (mantissa exponent : Nat) : Decimal :=
  let r := RoundingInterval.of mantissa exponent
  let grids := (List.range 24).map fun (i : Nat) => r.start - i
  (grids.findSome? (r.onGrid? tie)).getD ⟨0, 0⟩

/-- How a floating-point number is written. The point of a positional number stands after the
digit number `leftmost` to `rightmost` (counted from the first digit); others have an exponent. -/
structure FloatStyle where
  tie : Tie
  leftmost : Option Int
  rightmost : Option Int
  /-- Whether a number without a fraction is written with `.0`. -/
  pointZero : Bool
  /-- Whether a positive exponent has a plus sign. -/
  plus : Bool
deriving DecidableEq, Repr

namespace FloatStyle

/-- Digits only, however many. -/
def plain : FloatStyle := ⟨.up, none, none, false, false⟩

/-- The number of a JSON text: positional from `1e-5` up to sixteen digits, and never an integer. -/
def json : FloatStyle := ⟨.toEven, some (-4), some 16, true, true⟩

/-- The number inside the description of a value: positional from `1e-4` up to sixteen digits. -/
def described : FloatStyle := ⟨.up, some (-3), some 16, true, false⟩

/-- Whether a number whose point stands after digit number `point` is positional. -/
def isPositional (style : FloatStyle) (point : Int) : Bool :=
  style.leftmost.all (· ≤ point) && style.rightmost.all (point ≤ ·)

/-- A positional decimal with its point after digit number `point`. -/
def positional (style : FloatStyle) (digits : List Char) (point : Int) : String :=
  let tail := if style.pointZero then ".0" else ""
  if point ≤ 0 then
    "0." ++ .ofList (List.replicate (-point).toNat '0' ++ digits)
  else if digits.length ≤ point.toNat then
    .ofList (digits ++ List.replicate (point.toNat - digits.length) '0') ++ tail
  else
    .ofList (digits.take point.toNat) ++ "." ++ .ofList (digits.drop point.toNat)

/-- A decimal with an exponent. -/
def scientific (style : FloatStyle) (digits : List Char) (point : Int) : String :=
  let exponent := point - 1
  let sign := if style.plus && 0 ≤ exponent then "+" else ""
  let fraction := match digits.drop 1 with
    | [] => ""
    | rest => "." ++ .ofList rest
  .ofList (digits.take 1) ++ fraction ++ "e" ++ sign ++ Text.ofInt exponent

/-- The digits of a decimal without the zeros at its end, and the place of the point. -/
def significant (d : Decimal) : List Char × Int :=
  let digits := Nat.toDigits 10 d.digits
  ((digits.reverse.dropWhile (· == '0')).reverse, digits.length + d.exponent)

/-- The text of a number. -/
def render (style : FloatStyle) : Binary64 → String
  | .nan => "NaN"
  | .infinite negative => if negative then "-inf" else "inf"
  | .finite negative mantissa exponent _ =>
    let sign := if negative then "-" else ""
    if mantissa = 0 then sign ++ (if style.pointZero then "0.0" else "0")
    else
      let (digits, point) := significant (shortestDecimal style.tie mantissa exponent)
      sign ++ if style.isPositional point then style.positional digits point
        else style.scientific digits point

end FloatStyle

end RowGraph
