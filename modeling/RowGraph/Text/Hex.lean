/-!
# Hexadecimal text

Bytes and wide numbers as small hexadecimal digits of a fixed count, and the way back.

Main statements: `hexNumber?_hexDigits` and `bytesOfHex?_flatMap_hexDigits` (what is written is read
back).
-/

namespace RowGraph.Text

/-- The small hexadecimal digit of a number below sixteen. -/
def hexDigit (n : Nat) : Char :=
  Char.ofNat (if n < 10 then '0'.toNat + n else 'a'.toNat + (n - 10))

/-- The last `width` hexadecimal digits of `n`, most significant first. -/
def hexDigits : (width n : Nat) → List Char
  | 0, _ => []
  | width + 1, n => hexDigits width (n / 16) ++ [hexDigit (n % 16)]

@[simp] theorem length_hexDigits (width n : Nat) : (hexDigits width n).length = width := by
  induction width generalizing n with
  | zero => rfl
  | succ width ih => simp [hexDigits, ih]

/-- Two digits for each byte. -/
def hexOfBytes (bytes : List UInt8) : String :=
  .ofList (bytes.flatMap fun b => hexDigits 2 b.toNat)

/-- The value of a hexadecimal digit of either case. -/
def hexValue? (c : Char) : Option Nat :=
  if c.isDigit then some (c.toNat - '0'.toNat)
  else if 'a' ≤ c && c ≤ 'f' then some (c.toNat - 'a'.toNat + 10)
  else if 'A' ≤ c && c ≤ 'F' then some (c.toNat - 'A'.toNat + 10)
  else none

/-- The number written by hexadecimal digits, `none` when some character is no such digit. -/
def hexNumber? (cs : List Char) : Option Nat :=
  cs.foldlM (fun n c => (hexValue? c).map (16 * n + ·)) 0

/-- The bytes written by pairs of hexadecimal digits. -/
def bytesOfHex? : List Char → Option (List UInt8)
  | [] => some []
  | [_] => none
  | a :: b :: rest => do
    let n ← hexNumber? [a, b]
    return UInt8.ofNat n :: (← bytesOfHex? rest)

/-! ## Laws -/

/-- A digit is read as its value. -/
theorem hexValue?_hexDigit {n : Nat} (h : n < 16) : hexValue? (hexDigit n) = some n := by
  have all : ∀ m ∈ List.range 16, hexValue? (hexDigit m) = some m := by decide
  exact all n (List.mem_range.2 h)

/-- The last digits of a number are read as what is left of it. -/
theorem hexNumber?_hexDigits (width n : Nat) :
    hexNumber? (hexDigits width n) = some (n % Nat.pow 16 width) := by
  rw [Nat.pow_eq]
  induction width generalizing n with
  | zero => simp [hexNumber?, hexDigits, Nat.mod_one]
  | succ width ih =>
    have step := ih (n / 16)
    rw [hexNumber?] at step
    rw [hexNumber?, hexDigits, List.foldlM_append, step]
    simp only [List.foldlM_cons, List.foldlM_nil, Option.bind_eq_bind, Option.bind_some,
      hexValue?_hexDigit (Nat.mod_lt n (by decide : 0 < 16)), Option.map_some]
    have split : n % 16 ^ (width + 1) = 16 * (n / 16 % 16 ^ width) + n % 16 := by
      rw [Nat.pow_succ', Nat.mod_mul]; omega
    simp [split]

/-- Written bytes are read back. -/
theorem bytesOfHex?_flatMap_hexDigits (bytes : List UInt8) :
    bytesOfHex? (bytes.flatMap fun b => hexDigits 2 b.toNat) = some bytes := by
  induction bytes with
  | nil => rfl
  | cons b rest ih =>
    have hb : hexNumber? (hexDigits 2 b.toNat) = some (b.toNat % 16 ^ 2) :=
      hexNumber?_hexDigits 2 b.toNat
    have hlt : b.toNat % 16 ^ 2 = b.toNat := Nat.mod_eq_of_lt b.toNat_lt
    rw [hlt] at hb
    simp only [hexDigits, List.nil_append, List.cons_append] at hb ih ⊢
    simp [bytesOfHex?, hb, ih]

end RowGraph.Text
