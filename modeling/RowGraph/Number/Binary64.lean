/-!
# Binary floating-point numbers of 64 bits

A number is kept as exact data: a sign, a mantissa and the exponent of its unit. All values of the
format are here (both zeros, the infinities, one not-a-number), and each finite value has exactly
one form, so structural equality tells two numbers apart; comparison as numbers is `Binary64.equal`.

Rounding is done once, in natural numbers, by `Format.nearest`: the nearest point of the grid, the
even one of two that are equally near. Reading decimal text, products and quotients are the exact
value followed by that rounding.

Main statements: `equal_comm`, `equal_self_iff` (only not-a-number differs from itself), and
`negate_negate`.

Modelled: the numbers that values hold, and what reading and writing them needs.

Left out: other roundings, and the payload of what is not a number.
-/

namespace RowGraph

/-- A binary floating-point format: the bits of a mantissa, `bias` with the least unit
`2 ^ (-bias)`, and the greatest exponent above it. -/
structure Format where
  precision : Nat
  bias : Nat
  top : Nat
deriving DecidableEq, Repr

namespace Format

/-- The format of 64 bits. -/
def double : Format := ⟨53, 1074, 2045⟩

/-- The format of 32 bits. -/
def single : Format := ⟨24, 149, 253⟩

/-- The quotient rounded to the nearest natural number, a half to the even one. -/
def roundHalfEven (num den : Nat) : Nat :=
  let q := num / den
  let r := num % den
  if 2 * r < den then q else if den < 2 * r then q + 1 else q + q % 2

/-- `num / den` in units of `2 ^ (exponent - bias)`, rounded. -/
def inUnits (f : Format) (num den exponent : Nat) : Nat :=
  if exponent ≤ f.bias then roundHalfEven (num * Nat.pow 2 (f.bias - exponent)) den
  else roundHalfEven num (den * Nat.pow 2 (exponent - f.bias))

/-- The binary order of magnitude of a positive quotient, as a shift above the least unit: the
exponent of the unit in which its mantissa has the full precision, or zero when there is none. -/
def exponentOf (f : Format) (num den : Nat) : Nat :=
  let estimate : Int := (num.log2 : Int) - den.log2
  let magnitude : Int :=
    if 0 ≤ estimate then
      if num < den * Nat.pow 2 estimate.toNat then estimate - 1 else estimate
    else
      if num * Nat.pow 2 (-estimate).toNat < den then estimate - 1 else estimate
  (magnitude - (f.precision - 1 : Nat) + f.bias).toNat

/-- The mantissa and exponent of the number of the format nearest to `num / den`; an exponent above
`top` means that the number is too large for the format. -/
def nearest (f : Format) (num den : Nat) : Nat × Nat :=
  let exponent := f.exponentOf num den
  let mantissa := f.inUnits num den exponent
  if mantissa = Nat.pow 2 f.precision then (Nat.pow 2 (f.precision - 1), exponent + 1)
  else (mantissa, exponent)

end Format

/-- Whether a mantissa and an exponent are the one form of a finite number: the mantissa fits, and
it is full unless the unit is the least one. -/
def Binary64.Canonical (mantissa exponent : Nat) : Prop :=
  mantissa < Nat.pow 2 53 ∧ exponent ≤ 2045 ∧ (exponent = 0 ∨ Nat.pow 2 52 ≤ mantissa)

instance (mantissa exponent : Nat) : Decidable (Binary64.Canonical mantissa exponent) :=
  inferInstanceAs (Decidable (_ ∧ _ ∧ _))

/-- A floating-point number of 64 bits. A finite one is
`± mantissa * 2 ^ (exponent - 1074)`. -/
inductive Binary64
  | finite (negative : Bool) (mantissa exponent : Nat)
      (canonical : Binary64.Canonical mantissa exponent)
  | infinite (negative : Bool)
  | nan
deriving DecidableEq

namespace Binary64

/-- Zero, with a sign. -/
def zero (negative : Bool) : Binary64 :=
  .finite negative 0 0 (by decide)

instance : Inhabited Binary64 := ⟨zero false⟩

/-- The number with this sign, mantissa and exponent, infinite when the exponent is too large. -/
def ofParts (negative : Bool) (mantissa exponent : Nat) : Binary64 :=
  if h : Canonical mantissa exponent then .finite negative mantissa exponent h
  else .infinite negative

/-- The number nearest to `num / den`, with a sign. -/
def ofRatio (negative : Bool) (num den : Nat) : Binary64 :=
  if num = 0 then zero negative
  else
    let (mantissa, exponent) := Format.double.nearest num den
    ofParts negative mantissa exponent

/-- The magnitude of a finite number as a quotient of natural numbers. -/
def ratio? : Binary64 → Option (Nat × Nat)
  | .finite _ m e _ => some (m * Nat.pow 2 (e - 1074), Nat.pow 2 (1074 - e))
  | _ => none

/-- Whether the sign is a minus. -/
def isNegative : Binary64 → Bool
  | .finite s _ _ _ | .infinite s => s
  | .nan => false

/-- Whether the number is neither infinite nor not-a-number. -/
def isFinite : Binary64 → Bool
  | .finite .. => true
  | _ => false

/-- Whether the number is a zero of either sign. -/
def isZero : Binary64 → Bool
  | .finite _ m _ _ => m == 0
  | _ => false

/-- The number with the other sign. -/
def negate : Binary64 → Binary64
  | .finite s m e h => .finite (!s) m e h
  | .infinite s => .infinite (!s)
  | .nan => .nan

/-- The rounded product of finite numbers. -/
def times (a b : Binary64) : Binary64 :=
  match a.ratio?, b.ratio? with
  | some (n, d), some (n', d') => ofRatio (a.isNegative != b.isNegative) (n * n') (d * d')
  | _, _ => .nan

/-- The rounded quotient of finite numbers, the second one not zero. -/
def dividedBy (a b : Binary64) : Binary64 :=
  match a.ratio?, b.ratio? with
  | some (n, d), some (n', d') => ofRatio (a.isNegative != b.isNegative) (n * d') (d * n')
  | _, _ => .nan

/-- The number nearest to an integer. -/
def ofInt (i : Int) : Binary64 :=
  ofRatio (i < 0) i.natAbs 1

/-- Equality as numbers: the zeros are equal, and not-a-number differs from everything. -/
def equal : Binary64 → Binary64 → Bool
  | .finite s m e _, .finite s' m' e' _ => (m == 0 && m' == 0) || (s == s' && m == m' && e == e')
  | .infinite s, .infinite s' => s == s'
  | _, _ => false

/-- The integer that the number is, if it is one. -/
def integer? : Binary64 → Option Int
  | .finite s m e _ =>
    if m * Nat.pow 2 (e - 1074) % Nat.pow 2 (1074 - e) = 0 then
      let n : Int := (m * Nat.pow 2 (e - 1074) / Nat.pow 2 (1074 - e) : Nat)
      some (if s then -n else n)
    else none
  | _ => none

theorem equal_comm (a b : Binary64) : a.equal b = b.equal a := by
  cases a <;> cases b <;> simp [equal, Bool.and_comm, BEq.comm]

@[simp] theorem not_equal_nan (a : Binary64) : a.equal .nan = false := by
  cases a <;> rfl

@[simp] theorem nan_not_equal (a : Binary64) : equal .nan a = false := by
  cases a <;> rfl

theorem equal_self_iff {a : Binary64} : a.equal a = true ↔ a ≠ .nan := by
  cases a <;> simp [equal]

@[simp] theorem negate_negate (a : Binary64) : a.negate.negate = a := by
  cases a <;> simp [negate]

end Binary64

end RowGraph
