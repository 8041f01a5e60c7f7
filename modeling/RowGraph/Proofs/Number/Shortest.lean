import Mathlib.Algebra.Order.Field.Power
import Mathlib.Data.Rat.Cast.Order
import Mathlib.Tactic.FieldSimp
import Mathlib.Tactic.Linarith
import Mathlib.Tactic.Positivity
import Mathlib.Tactic.Ring
import RowGraph.Number.Shortest

/-!
# The shortest decimal lies where it has to

The numbers that round to a finite one form an interval, and the intervals of different numbers have
no number in common: they meet in an end at most, and an end belongs to the even mantissa alone. The
search for the shortest decimal goes down to a grid that is finer than the interval, so it finds a
decimal, and the decimal says which number was written.

Results:
* `RoundingInterval.holds_iff`: the test in natural numbers is the one in rationals.
* `eq_of_contains`: a rational lies in the interval of one number only.
* `holds_shortestDecimal`: the search finds a decimal of the interval.
* `shortestDecimal_inj`: different numbers have decimals of different values.
-/

namespace RowGraph

/-- The number that a decimal stands for. -/
def Decimal.value (d : Decimal) : ℚ := d.digits * 10 ^ d.exponent

theorem Decimal.ratio_pos (d : Decimal) : 0 < d.ratio.2 := by
  unfold ratio
  split
  · exact Nat.one_pos
  · exact Nat.pow_pos (by decide)

theorem Decimal.ratio_eq (d : Decimal) : (d.ratio.1 : ℚ) / d.ratio.2 = d.value := by
  unfold ratio value
  split
  · next h =>
    obtain ⟨n, hn⟩ := Int.eq_ofNat_of_zero_le h
    simp [hn]
  · next h =>
    obtain ⟨n, hn⟩ := Int.eq_ofNat_of_zero_le (Int.neg_nonneg.mpr (Int.le_of_lt (Int.not_le.mp h)))
    have hexp : d.exponent = -(n : ℤ) := by omega
    simp [hexp, div_eq_mul_inv]

namespace RoundingInterval

/-- The ends of the interval and the number in it. -/
def lower (r : RoundingInterval) : ℚ := r.low / r.den

def center (r : RoundingInterval) : ℚ := r.mid / r.den

def upper (r : RoundingInterval) : ℚ := r.high / r.den

/-- The interval contains a number. -/
def Contains (r : RoundingInterval) (x : ℚ) : Prop :=
  r.lower ≤ x ∧ x ≤ r.upper ∧ (r.closed = false → r.lower < x ∧ x < r.upper)

theorem holds_iff {r : RoundingInterval} (hden : 0 < r.den) (d : Decimal) :
    r.holds d = true ↔ r.Contains d.value := by
  have hr : (0 : ℚ) < r.den := by exact_mod_cast hden
  have hd : (0 : ℚ) < d.ratio.2 := by exact_mod_cast d.ratio_pos
  have hle : r.lower ≤ d.value ↔ r.low * d.ratio.2 ≤ d.ratio.1 * r.den := by
    rw [lower, ← d.ratio_eq, div_le_div_iff₀ hr hd]
    exact_mod_cast Iff.rfl
  have hge : d.value ≤ r.upper ↔ d.ratio.1 * r.den ≤ r.high * d.ratio.2 := by
    rw [upper, ← d.ratio_eq, div_le_div_iff₀ hd hr]
    exact_mod_cast Iff.rfl
  have hlt : r.lower < d.value ↔ r.low * d.ratio.2 < d.ratio.1 * r.den := by
    rw [lower, ← d.ratio_eq, div_lt_div_iff₀ hr hd]
    exact_mod_cast Iff.rfl
  have hgt : d.value < r.upper ↔ d.ratio.1 * r.den < r.high * d.ratio.2 := by
    rw [upper, ← d.ratio_eq, div_lt_div_iff₀ hd hr]
    exact_mod_cast Iff.rfl
  rw [holds, Contains, hle, hge, hlt, hgt]
  cases hclosed : r.closed with
  | true => simp
  | false =>
    simp only [Bool.false_eq_true, if_false, Bool.and_eq_true, decide_eq_true_eq, forall_const]
    exact ⟨fun h => ⟨h.1.le, h.2.le, h⟩, fun h => h.2.2⟩

/-! ## The intervals of different numbers -/

/-- A quarter of the unit of a mantissa. -/
def quarter (exponent : ℕ) : ℚ := 2 ^ ((exponent : ℤ) - 1076)

theorem quarter_pos (exponent : ℕ) : 0 < quarter exponent := by
  unfold quarter
  positivity

theorem quarter_add (exponent more : ℕ) :
    quarter (exponent + more) = 2 ^ more * quarter exponent := by
  unfold quarter
  rw [← zpow_natCast, ← zpow_add₀ two_ne_zero]
  congr 1
  push_cast
  ring

theorem scale_div_den (exponent : ℕ) :
    ((Nat.pow 2 (exponent - 1076) : ℕ) : ℚ) / ((Nat.pow 2 (1076 - exponent) : ℕ) : ℚ) =
      quarter exponent := by
  have hexponent : (exponent : ℤ) - 1076 =
      ((exponent - 1076 : ℕ) : ℤ) - ((1076 - exponent : ℕ) : ℤ) := by
    omega
  rw [quarter, hexponent, zpow_sub₀ two_ne_zero, zpow_natCast, zpow_natCast, Nat.pow_eq, Nat.pow_eq,
    Nat.cast_pow, Nat.cast_pow, Nat.cast_ofNat]

/-- How far, in quarters of the unit, the interval reaches below the number. -/
def reach (mantissa exponent : ℕ) : ℕ :=
  if mantissa = Nat.pow 2 52 && 0 < exponent then 1 else 2

theorem reach_cases (mantissa exponent : ℕ) :
    reach mantissa exponent = 1 ∧ mantissa = Nat.pow 2 52 ∧ 0 < exponent ∨
      reach mantissa exponent = 2 ∧ (mantissa = Nat.pow 2 52 → exponent = 0) := by
  unfold reach
  split
  · next h => exact .inl ⟨rfl, by simpa using h⟩
  · next h => exact .inr ⟨rfl, by simpa using h⟩

variable {m e n f : ℕ}

theorem den_of_pos (m e : ℕ) : 0 < (of m e).den := by
  simp [of]

theorem lower_of (m e : ℕ) : (of m e).lower = ((4 * m - reach m e : ℕ) : ℚ) * quarter e := by
  rw [← scale_div_den, mul_div_assoc']
  simp only [lower, of, reach, Nat.cast_mul]

theorem center_of (m e : ℕ) : (of m e).center = ((4 * m : ℕ) : ℚ) * quarter e := by
  rw [← scale_div_den, mul_div_assoc']
  simp only [center, of, Nat.cast_mul]

theorem upper_of (m e : ℕ) : (of m e).upper = ((4 * m + 2 : ℕ) : ℚ) * quarter e := by
  rw [← scale_div_den, mul_div_assoc']
  simp only [upper, of, Nat.cast_mul]

theorem closed_of (m e : ℕ) : (of m e).closed = true ↔ m % 2 = 0 := by
  simp [of]

/-- Of two numbers with a rational in both intervals the second is not above the first: in quarters
of the smaller unit the upper end of the one would reach the lower end of the other, and both ends
would have to belong to their intervals. -/
theorem not_below_of_contains (hm : Binary64.Canonical m e) (hn : Binary64.Canonical n f)
    {x : ℚ} (hx : (of m e).Contains x) (hy : (of n f).Contains x) : ¬ (e < f ∨ e = f ∧ m < n) := by
  intro hbelow
  obtain ⟨k, rfl⟩ : ∃ k, f = e + k := Nat.exists_eq_add_of_le (by omega)
  have hq := quarter_pos e
  have hle : (4 * n - reach n (e + k)) * 2 ^ k ≤ 4 * m + 2 := by
    have h := hy.1.trans hx.2.1
    rw [lower_of, upper_of, quarter_add, ← mul_assoc, mul_le_mul_iff_left₀ hq] at h
    exact_mod_cast h
  have hlt : m % 2 = 1 ∨ n % 2 = 1 → (4 * n - reach n (e + k)) * 2 ^ k < 4 * m + 2 := by
    intro hodd
    have h : (of n (e + k)).lower < (of m e).upper := by
      rcases hodd with hodd | hodd
      · have hopen : (of m e).closed = false := by
          rw [← Bool.not_eq_true, closed_of, hodd]
          decide
        exact hy.1.trans_lt (hx.2.2 hopen).2
      · have hopen : (of n (e + k)).closed = false := by
          rw [← Bool.not_eq_true, closed_of, hodd]
          decide
        exact (hy.2.2 hopen).1.trans_le hx.2.1
    rw [lower_of, upper_of, quarter_add, ← mul_assoc, mul_lt_mul_iff_left₀ hq] at h
    exact_mod_cast h
  obtain ⟨-, -, hfull⟩ := hn
  obtain ⟨hsmall, -, -⟩ := hm
  have hreach := reach_cases n (e + k)
  simp only [Nat.pow_eq, Nat.reducePow] at hfull hsmall hreach
  rcases Nat.eq_zero_or_pos k with rfl | hk
  · rw [Nat.pow_zero, Nat.mul_one] at hle hlt
    omega
  · have htwo : 2 ≤ 2 ^ k := Nat.le_self_pow hk.ne' 2
    have hdouble : (4 * n - reach n (e + k)) * 2 ≤ (4 * n - reach n (e + k)) * 2 ^ k :=
      Nat.mul_le_mul_left _ htwo
    omega

/-- A rational lies in the interval of one number only. -/
theorem eq_of_contains (hm : Binary64.Canonical m e) (hn : Binary64.Canonical n f) {x : ℚ}
    (hx : (of m e).Contains x) (hy : (of n f).Contains x) : m = n ∧ e = f := by
  have hbelow := not_below_of_contains hm hn hx hy
  have habove := not_below_of_contains hn hm hy hx
  omega

/-! ## The search -/

/-- The neighbour below the number on a grid. -/
def below (r : RoundingInterval) (k : ℤ) : Decimal :=
  ⟨(if k < 0 then r.mid * Nat.pow 10 (-k).toNat else r.mid) /
    (if k < 0 then r.den else r.den * Nat.pow 10 k.toNat), k⟩

/-- A grid yields a decimal of the interval, or the neighbour below does not lie in it. -/
theorem onGrid?_cases (tie : Tie) (r : RoundingInterval) (k : ℤ) :
    (∃ d, r.onGrid? tie k = some d ∧ r.holds d = true) ∨
      r.onGrid? tie k = none ∧ r.holds (r.below k) = false := by
  simp only [onGrid?, below]
  generalize (if k < 0 then r.mid * Nat.pow 10 (-k).toNat else r.mid) = num
  generalize (if k < 0 then r.den else r.den * Nat.pow 10 k.toNat) = den
  cases hdown : r.holds ⟨num / den, k⟩ with
  | false =>
    cases hup : r.holds ⟨num / den + 1, k⟩ with
    | false => exact .inr ⟨rfl, rfl⟩
    | true => exact .inl ⟨_, rfl, hup⟩
  | true =>
    refine .inl ?_
    cases hup : r.holds ⟨num / den + 1, k⟩ with
    | false => exact ⟨_, rfl, hdown⟩
    | true =>
      cases tie <;> dsimp only <;> split_ifs <;>
        first
        | exact ⟨_, rfl, hdown⟩
        | exact ⟨_, rfl, hup⟩

theorem holds_of_onGrid? {tie : Tie} {r : RoundingInterval} {k : ℤ} {d : Decimal}
    (h : r.onGrid? tie k = some d) : r.holds d = true := by
  obtain ⟨d', hd, hholds⟩ | ⟨hnone, -⟩ := onGrid?_cases tie r k
  · cases h.symm.trans hd
    exact hholds
  · cases h.symm.trans hnone

theorem isSome_onGrid? {tie : Tie} {r : RoundingInterval} {k : ℤ}
    (h : r.holds (r.below k) = true) : (r.onGrid? tie k).isSome = true := by
  obtain ⟨d, hd, -⟩ | ⟨-, hbelow⟩ := onGrid?_cases tie r k
  · rw [hd]
    rfl
  · exact absurd (h.symm.trans hbelow) (by decide)

/-- A natural quotient as a rational. -/
theorem cast_div_bounds (num : ℕ) {den : ℕ} (hden : 0 < den) :
    ((num / den : ℕ) : ℚ) ≤ (num : ℚ) / den ∧ (num : ℚ) / den < (num / den : ℕ) + 1 := by
  have hpos : (0 : ℚ) < den := by exact_mod_cast hden
  rw [le_div_iff₀ hpos, div_lt_iff₀ hpos, mul_comm _ (den : ℚ), mul_comm _ (den : ℚ)]
  exact ⟨by exact_mod_cast Nat.mul_div_le num den, by exact_mod_cast Nat.lt_mul_div_succ num hden⟩

/-- It is less than one step of the grid below the number. -/
theorem value_below {r : RoundingInterval} (hden : 0 < r.den) (k : ℤ) :
    (r.below k).value ≤ r.center ∧ r.center < (r.below k).value + 10 ^ k := by
  have hstep : (0 : ℚ) < 10 ^ k := by positivity
  suffices h : ((r.below k).digits : ℚ) ≤ r.center / 10 ^ k ∧
      r.center / 10 ^ k < (r.below k).digits + 1 by
    rw [le_div_iff₀ hstep, div_lt_iff₀ hstep, add_mul, one_mul] at h
    exact h
  by_cases hk : k < 0
  · obtain ⟨n, hn⟩ := Int.eq_ofNat_of_zero_le (Int.neg_nonneg.mpr hk.le)
    obtain rfl : k = -(n : ℤ) := by omega
    have hratio : r.center / 10 ^ (-(n : ℤ)) = ((r.mid * Nat.pow 10 n : ℕ) : ℚ) / r.den := by
      rw [center, zpow_neg, zpow_natCast, div_inv_eq_mul, Nat.pow_eq]
      push_cast
      ring
    have hbelow : (r.below (-(n : ℤ))).digits = r.mid * Nat.pow 10 n / r.den := by
      rw [below, if_pos hk, if_pos hk, neg_neg, Int.toNat_natCast]
    rw [hratio, hbelow]
    exact cast_div_bounds _ hden
  · obtain ⟨n, rfl⟩ := Int.eq_ofNat_of_zero_le (Int.not_lt.mp hk)
    have hratio : r.center / 10 ^ (n : ℤ) = (r.mid : ℚ) / ((r.den * Nat.pow 10 n : ℕ) : ℚ) := by
      rw [center, zpow_natCast, div_div, Nat.pow_eq]
      push_cast
      ring
    have hpos : 0 < r.den * Nat.pow 10 n := Nat.mul_pos hden (Nat.pow_pos (by decide))
    have hbelow : (r.below (n : ℤ)).digits = r.mid / (r.den * Nat.pow 10 n) := by
      rw [below, if_neg hk, if_neg hk, Int.toNat_natCast]
    rw [hratio, hbelow]
    exact cast_div_bounds _ hpos

theorem digitCount_pos (n : ℕ) : 0 < digitCount n := Nat.length_toDigits_pos

theorem lt_pow_digitCount (n : ℕ) : n < 10 ^ digitCount n :=
  (Nat.length_toDigits_le_iff (by decide) (digitCount_pos n)).mp (Nat.le_refl _)

theorem pow_digitCount_le {n : ℕ} (h : 0 < n) : 10 ^ (digitCount n - 1) ≤ n := by
  rcases Nat.eq_zero_or_pos (digitCount n - 1) with hzero | hpos
  · rw [hzero]
    exact h
  · by_contra hlt
    have hle := (Nat.length_toDigits_le_iff (by decide) hpos).mpr (Nat.not_le.mp hlt)
    have hcount : digitCount n = (Nat.toDigits 10 n).length := rfl
    omega

/-- The search starts at most two orders of magnitude above the number. -/
theorem pow_start_le {r : RoundingInterval} (hden : 0 < r.den) (hmid : 0 < r.mid) :
    (10 : ℚ) ^ (r.start - 2) ≤ r.center := by
  have hd : (0 : ℚ) < r.den := by exact_mod_cast hden
  rw [start]
  split
  · next hle =>
    have hpos : 0 < r.mid / r.den := Nat.div_pos hle hden
    have hexponent : ((digitCount (r.mid / r.den) : ℤ) + 1 - 2) =
        ((digitCount (r.mid / r.den) - 1 : ℕ) : ℤ) := by
      have := digitCount_pos (r.mid / r.den)
      omega
    rw [hexponent, zpow_natCast]
    refine le_trans ?_ (cast_div_bounds r.mid hden).1
    exact_mod_cast pow_digitCount_le hpos
  · next hlt =>
    have hm : (0 : ℚ) < r.mid := by exact_mod_cast hmid
    have hexponent : 2 - (digitCount (r.den / r.mid) : ℤ) - 2 =
        -(digitCount (r.den / r.mid) : ℤ) := by
      ring
    have hbound : (r.den : ℚ) / r.mid ≤ 10 ^ digitCount (r.den / r.mid) := by
      refine (cast_div_bounds r.den hmid).2.le.trans ?_
      exact_mod_cast lt_pow_digitCount (r.den / r.mid)
    rw [hexponent, zpow_neg, zpow_natCast, center, ← inv_div (r.den : ℚ)]
    exact inv_anti₀ (div_pos hd hm) hbound

/-- A number has less than eighteen digits above its quarter unit, so nineteen grids below the start
a step is no longer than that unit, and the neighbour below lies in the interval. -/
theorem holds_below (hm : 0 < m) (hlt : m < Nat.pow 2 53) (e : ℕ) :
    (of m e).holds ((of m e).below ((of m e).start - 19)) = true := by
  have hq := quarter_pos e
  have hmid : 0 < (of m e).mid := by
    simp [of, hm]
  have hstart := pow_start_le (den_of_pos m e) hmid
  have hsmall : (of m e).center < 10 ^ (17 : ℤ) * quarter e := by
    rw [center_of, mul_lt_mul_iff_left₀ hq]
    have hlt' : 4 * m < 10 ^ 17 := by
      rw [Nat.pow_eq] at hlt
      omega
    exact_mod_cast hlt'
  have hstep : (10 : ℚ) ^ ((of m e).start - 19) < quarter e := by
    have hsplit : (10 : ℚ) ^ ((of m e).start - 2) = 10 ^ (17 : ℤ) * 10 ^ ((of m e).start - 19) := by
      rw [← zpow_add₀ (by norm_num)]
      congr 1
      ring
    rw [hsplit] at hstart
    exact lt_of_mul_lt_mul_left (hstart.trans_lt hsmall) (by positivity)
  obtain ⟨hle, hnear⟩ := value_below (den_of_pos m e) ((of m e).start - 19)
  have hreach : (of m e).lower + quarter e ≤ (of m e).center := by
    have hquarters : 4 * m - reach m e + 1 ≤ 4 * m := by
      have hcases := reach_cases m e
      omega
    rw [lower_of, center_of, ← add_one_mul]
    exact mul_le_mul_of_nonneg_right (by exact_mod_cast hquarters) hq.le
  have hupper : (of m e).center < (of m e).upper := by
    rw [center_of, upper_of, mul_lt_mul_iff_left₀ hq]
    exact_mod_cast Nat.lt_add_of_pos_right (by decide)
  have hlower : (of m e).lower < ((of m e).below ((of m e).start - 19)).value := by linarith
  rw [holds_iff (den_of_pos m e)]
  exact ⟨hlower.le, hle.trans hupper.le, fun _ => ⟨hlower, hle.trans_lt hupper⟩⟩

theorem holds_shortestDecimal (tie : Tie) (hm : 0 < m) (hlt : m < Nat.pow 2 53) (e : ℕ) :
    (of m e).holds (shortestDecimal tie m e) = true := by
  have hgrid : (((List.range 24).map fun (i : Nat) => (of m e).start - i).findSome?
      ((of m e).onGrid? tie)).isSome = true := by
    rw [List.findSome?_isSome_iff]
    refine ⟨(of m e).start - 19, List.mem_map.mpr ⟨19, by decide, rfl⟩, ?_⟩
    exact isSome_onGrid? (holds_below hm hlt e)
  obtain ⟨d, hd⟩ := Option.isSome_iff_exists.mp hgrid
  obtain ⟨k, -, hk⟩ := List.exists_of_findSome?_eq_some hd
  have hshortest : shortestDecimal tie m e = d := by
    rw [shortestDecimal, hd, Option.getD_some]
  rw [hshortest]
  exact holds_of_onGrid? hk

/-- The decimal of a positive number is positive. -/
theorem value_shortestDecimal_pos (tie : Tie) (hm : 0 < m) (hlt : m < Nat.pow 2 53) (e : ℕ) :
    0 < (shortestDecimal tie m e).value := by
  have hholds := holds_shortestDecimal tie hm hlt e
  rw [holds_iff (den_of_pos m e)] at hholds
  refine lt_of_lt_of_le ?_ hholds.1
  have hcases := reach_cases m e
  have hpos : 0 < 4 * m - reach m e := by omega
  rw [lower_of]
  exact mul_pos (by exact_mod_cast hpos) (quarter_pos e)

end RoundingInterval

/-- Different numbers have shortest decimals of different values. -/
theorem shortestDecimal_inj {tie : Tie} {m e n f : ℕ} (hm : Binary64.Canonical m e) (hm' : 0 < m)
    (hn : Binary64.Canonical n f) (hn' : 0 < n)
    (h : (shortestDecimal tie m e).value = (shortestDecimal tie n f).value) : m = n ∧ e = f := by
  have hx := RoundingInterval.holds_shortestDecimal tie hm' hm.1 e
  have hy := RoundingInterval.holds_shortestDecimal tie hn' hn.1 f
  rw [RoundingInterval.holds_iff (RoundingInterval.den_of_pos _ _)] at hx hy
  rw [← h] at hy
  exact RoundingInterval.eq_of_contains hm hn hx hy

end RowGraph
