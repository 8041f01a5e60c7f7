import RowGraph.Proofs.Number.Shortest
import RowGraph.Proofs.Text.Numerals

/-!
# Floating-point numbers in plain digits

A text of digits with a point among them stands for a number, and the plain text of a floating-point
number stands for its shortest decimal. The decimal says which number it was taken from, so two
numbers with one text are one number; a sign and the words for what is not finite are told apart by
their characters.

Results:
* `Decimal.value_significant`: the digits that are written and the place of the point.
* `positionalValue_positional`: what the text of a decimal stands for.
* **`render_plain_inj`**: the plain text determines the number, the sign of a zero included.
-/

namespace RowGraph

/-- The number that digits with a point among them stand for. -/
def positionalValue (cs : List Char) : ℚ :=
  Nat.ofDigitChars 10 (cs.filter (· ≠ '.')) 0 / 10 ^ ((cs.dropWhile (· ≠ '.')).drop 1).length

section Positional

variable {whole fraction : List Char}

theorem ne_point_of_isDigit {c : Char} (h : c.isDigit = true) : c ≠ '.' := by
  rintro rfl
  exact absurd h (by decide)

theorem positionalValue_digits (hwhole : ∀ c ∈ whole, c.isDigit = true) :
    positionalValue whole = Nat.ofDigitChars 10 whole 0 := by
  have hfilter : whole.filter (· ≠ '.') = whole :=
    List.filter_eq_self.mpr fun c hc => by simpa using ne_point_of_isDigit (hwhole c hc)
  have hdrop : whole.dropWhile (· ≠ '.') = [] := by
    rw [← List.append_nil whole, List.dropWhile_append_of_pos fun c hc => by
      simpa using ne_point_of_isDigit (hwhole c hc), List.dropWhile_nil]
  rw [positionalValue, hfilter, hdrop, List.drop_nil, List.length_nil, pow_zero, div_one]

theorem positionalValue_point (hwhole : ∀ c ∈ whole, c.isDigit = true)
    (hfraction : ∀ c ∈ fraction, c.isDigit = true) :
    positionalValue (whole ++ '.' :: fraction) =
      Nat.ofDigitChars 10 (whole ++ fraction) 0 / 10 ^ fraction.length := by
  have hfilter : (whole ++ '.' :: fraction).filter (· ≠ '.') = whole ++ fraction := by
    rw [List.filter_append, List.filter_cons_of_neg (by decide),
      List.filter_eq_self.mpr fun c hc => by simpa using ne_point_of_isDigit (hwhole c hc),
      List.filter_eq_self.mpr fun c hc => by simpa using ne_point_of_isDigit (hfraction c hc)]
  have hdrop : (whole ++ '.' :: fraction).dropWhile (· ≠ '.') = '.' :: fraction := by
    rw [List.dropWhile_append_of_pos fun c hc => by simpa using ne_point_of_isDigit (hwhole c hc),
      List.dropWhile_cons_of_neg (by decide)]
  rw [positionalValue, hfilter, hdrop, List.drop_one, List.tail_cons]

end Positional

namespace FloatStyle

/-- The digits without the zeros at their end are followed by nothing but zeros. -/
theorem exists_significant_append (d : Decimal) :
    ∃ zeros, Nat.toDigits 10 d.digits = (significant d).1 ++ List.replicate zeros '0' := by
  refine ⟨((Nat.toDigits 10 d.digits).reverse.takeWhile (· == '0')).length, ?_⟩
  have hzeros : ((Nat.toDigits 10 d.digits).reverse.takeWhile (· == '0')).reverse =
      List.replicate ((Nat.toDigits 10 d.digits).reverse.takeWhile (· == '0')).length '0' := by
    rw [List.eq_replicate_iff]
    refine ⟨List.length_reverse, fun c hc => ?_⟩
    have hzero := List.all_eq_true.mp List.all_takeWhile c (List.mem_reverse.mp hc)
    exact eq_of_beq hzero
  rw [← hzeros, significant, ← List.reverse_append, List.takeWhile_append_dropWhile,
    List.reverse_reverse]

theorem isDigit_of_mem_significant {d : Decimal} {c : Char} (h : c ∈ (significant d).1) :
    c.isDigit = true := by
  obtain ⟨zeros, hdigits⟩ := exists_significant_append d
  exact Nat.isDigit_of_mem_toDigits (by decide) (by decide)
    (hdigits ▸ List.mem_append_left _ h)

/-- A decimal by the digits that are written and the place of the point. -/
theorem value_significant (d : Decimal) :
    d.value = Nat.ofDigitChars 10 (significant d).1 0 *
      10 ^ ((significant d).2 - (significant d).1.length) := by
  obtain ⟨zeros, hdigits⟩ := exists_significant_append d
  have hnumber : d.digits = 10 ^ zeros * Nat.ofDigitChars 10 (significant d).1 0 := by
    rw [← Nat.ofDigitChars_replicate_zero, ← Nat.ofDigitChars_append, ← hdigits,
      Nat.ofDigitChars_ten_toDigits]
  have hpoint : (significant d).2 - (significant d).1.length = (zeros : ℤ) + d.exponent := by
    have hlength := congrArg List.length hdigits
    rw [List.length_append, List.length_replicate] at hlength
    have hplace : (significant d).2 = (Nat.toDigits 10 d.digits).length + d.exponent := rfl
    rw [hplace, hlength]
    push_cast
    ring
  rw [Decimal.value, hnumber, hpoint, zpow_add₀ (by norm_num), zpow_natCast]
  push_cast
  ring

/-- Plain digits stand behind a point and zeros, or in front of zeros, or have a point among
them. -/
theorem toList_positional (digits : List Char) (point : ℤ) :
    (∃ n : ℕ, point = -n ∧ (plain.positional digits point).toList =
      List.replicate 1 '0' ++ '.' :: (List.replicate n '0' ++ digits)) ∨
    (∃ n : ℕ, point = n ∧ digits.length ≤ n ∧ (plain.positional digits point).toList =
      digits ++ List.replicate (n - digits.length) '0') ∨
    ∃ n : ℕ, point = n ∧ n ≤ digits.length ∧ (plain.positional digits point).toList =
      digits.take n ++ '.' :: digits.drop n := by
  rcases le_or_gt point 0 with hpoint | hpoint
  · obtain ⟨n, hn⟩ := Int.eq_ofNat_of_zero_le (Int.neg_nonneg.mpr hpoint)
    obtain rfl : point = -(n : ℤ) := by omega
    refine .inl ⟨n, rfl, ?_⟩
    rw [positional, if_pos hpoint]
    simp
  · obtain ⟨n, rfl⟩ := Int.eq_ofNat_of_zero_le (Int.le_of_lt hpoint)
    refine .inr ?_
    rw [positional, if_neg (Int.not_le.mpr hpoint), Int.toNat_natCast]
    by_cases hlength : digits.length ≤ n
    · refine .inl ⟨n, rfl, hlength, ?_⟩
      rw [if_pos hlength]
      simp [plain]
    · refine .inr ⟨n, rfl, Nat.le_of_not_le hlength, ?_⟩
      rw [if_neg hlength]
      simp

theorem isDigit_of_mem_zeros (zeros : ℕ) : ∀ c ∈ List.replicate zeros '0', c.isDigit = true := by
  intro c hc
  rw [List.eq_of_mem_replicate hc]
  rfl

section Digits

variable {digits : List Char} (hdigits : ∀ c ∈ digits, c.isDigit = true)
include hdigits

/-- What plain digits stand for. -/
theorem positionalValue_positional (point : ℤ) :
    positionalValue (plain.positional digits point).toList =
      Nat.ofDigitChars 10 digits 0 * 10 ^ (point - digits.length) := by
  rcases toList_positional digits point with ⟨n, rfl, hlist⟩ | ⟨n, rfl, hlength, hlist⟩ |
    ⟨n, rfl, hlength, hlist⟩
  · have hfraction : ∀ c ∈ List.replicate n '0' ++ digits, c.isDigit = true := fun c hc =>
      (List.mem_append.mp hc).elim (isDigit_of_mem_zeros n c) (hdigits c)
    rw [hlist, positionalValue_point (isDigit_of_mem_zeros 1) hfraction, ← List.append_assoc,
      List.replicate_append_replicate, Nat.ofDigitChars_append, Nat.ofDigitChars_replicate_zero,
      Nat.mul_zero, List.length_append, List.length_replicate, div_eq_mul_inv, ← zpow_natCast,
      ← zpow_neg]
    congr 2
    push_cast
    ring
  · have hwhole : ∀ c ∈ digits ++ List.replicate (n - digits.length) '0', c.isDigit = true :=
      fun c hc => (List.mem_append.mp hc).elim (hdigits c) (isDigit_of_mem_zeros _ c)
    rw [hlist, positionalValue_digits hwhole, Nat.ofDigitChars_append,
      Nat.ofDigitChars_replicate_zero, Nat.cast_mul, Nat.cast_pow, Nat.cast_ofNat, mul_comm,
      ← zpow_natCast, Nat.cast_sub hlength]
  · rw [hlist, positionalValue_point (fun c hc => hdigits c (List.mem_of_mem_take hc))
      fun c hc => hdigits c (List.mem_of_mem_drop hc), List.take_append_drop, List.length_drop,
      div_eq_mul_inv, ← zpow_natCast, ← zpow_neg, Nat.cast_sub hlength, neg_sub]

/-- The characters of plain digits. -/
theorem isDigit_of_mem_positional {point : ℤ} {c : Char}
    (h : c ∈ (plain.positional digits point).toList) : c.isDigit = true ∨ c = '.' := by
  have hpoint : ∀ {whole fraction : List Char}, (∀ d ∈ whole, d.isDigit = true) →
      (∀ d ∈ fraction, d.isDigit = true) → c ∈ whole ++ '.' :: fraction →
        c.isDigit = true ∨ c = '.' := by
    intro whole fraction hwhole hfraction hc
    rcases List.mem_append.mp hc with hc | hc
    · exact .inl (hwhole c hc)
    · rcases List.mem_cons.mp hc with hc | hc
      · exact .inr hc
      · exact .inl (hfraction c hc)
  rcases toList_positional digits point with ⟨n, -, hlist⟩ | ⟨n, -, -, hlist⟩ | ⟨n, -, -, hlist⟩
  · exact hpoint (isDigit_of_mem_zeros 1) (fun d hd =>
      (List.mem_append.mp hd).elim (isDigit_of_mem_zeros n d) (hdigits d)) (hlist ▸ h)
  · rw [hlist] at h
    exact .inl ((List.mem_append.mp h).elim (hdigits c) (isDigit_of_mem_zeros _ c))
  · exact hpoint (fun d hd => hdigits d (List.mem_of_mem_take hd))
      (fun d hd => hdigits d (List.mem_of_mem_drop hd)) (hlist ▸ h)

end Digits

/-! ## Numbers -/

/-- The text of a finite number without its sign. -/
def magnitudeText (mantissa exponent : ℕ) : String :=
  if mantissa = 0 then "0"
  else
    let (digits, point) := significant (shortestDecimal .up mantissa exponent)
    plain.positional digits point

theorem render_plain_finite (negative : Bool) (m e : ℕ) (canonical : Binary64.Canonical m e) :
    plain.render (.finite negative m e canonical) =
      (if negative then "-" else "") ++ magnitudeText m e := by
  rw [render, magnitudeText]
  split <;> rfl

/-- The number that the text of a magnitude stands for. -/
theorem positionalValue_magnitudeText (m e : ℕ) : positionalValue (magnitudeText m e).toList =
    if m = 0 then 0 else (shortestDecimal .up m e).value := by
  rw [magnitudeText]
  split
  · have hlist : "0".toList = List.replicate 1 '0' := by decide
    rw [hlist, positionalValue_digits (isDigit_of_mem_zeros 1), Nat.ofDigitChars_replicate_zero,
      Nat.mul_zero, Nat.cast_zero]
  · rw [value_significant]
    exact positionalValue_positional (fun c hc => isDigit_of_mem_significant hc) _

theorem magnitudeText_inj {m e n f : ℕ} (hm : Binary64.Canonical m e)
    (hn : Binary64.Canonical n f) (h : magnitudeText m e = magnitudeText n f) :
    m = n ∧ e = f := by
  have hvalues := positionalValue_magnitudeText m e
  rw [h, positionalValue_magnitudeText] at hvalues
  -- a zero has the least unit
  have hzero : ∀ {m e}, Binary64.Canonical m e → m = 0 → e = 0 := by
    rintro m e ⟨-, -, hunit | hfull⟩ rfl
    · exact hunit
    · exact absurd hfull (by decide)
  rcases Nat.eq_zero_or_pos m with hm' | hm' <;> rcases Nat.eq_zero_or_pos n with hn' | hn'
  · exact ⟨hm'.trans hn'.symm, (hzero hm hm').trans (hzero hn hn').symm⟩
  · rw [if_pos hm', if_neg hn'.ne'] at hvalues
    exact absurd hvalues (RoundingInterval.value_shortestDecimal_pos .up hn' hn.1 f).ne'
  · rw [if_neg hm'.ne', if_pos hn'] at hvalues
    exact absurd hvalues.symm (RoundingInterval.value_shortestDecimal_pos .up hm' hm.1 e).ne'
  · rw [if_neg hm'.ne', if_neg hn'.ne'] at hvalues
    exact shortestDecimal_inj hm hm' hn hn' hvalues.symm

/-- The characters of a magnitude. -/
theorem isDigit_of_mem_magnitudeText {m e : ℕ} {c : Char} (h : c ∈ (magnitudeText m e).toList) :
    c.isDigit = true ∨ c = '.' := by
  rw [magnitudeText] at h
  split at h
  · exact .inl (List.mem_singleton.mp h ▸ rfl)
  · exact isDigit_of_mem_positional (fun c hc => isDigit_of_mem_significant hc) h

/-- A magnitude has a digit at least. -/
theorem toList_magnitudeText_ne_nil (m e : ℕ) :
    (magnitudeText m e).toList ≠ [] := by
  rw [magnitudeText]
  split
  · decide
  · generalize significant (shortestDecimal .up m e) = found
    obtain ⟨digits, point⟩ := found
    by_cases hpoint : point ≤ 0
    · simp [positional, hpoint]
    · simp only [positional, if_neg hpoint]
      split
      · refine List.ne_nil_of_length_pos ?_
        simp only [String.toList_append, String.toList_ofList, List.length_append,
          List.length_replicate]
        omega
      · simp

/-- A finite number has no character of the words for the others. -/
theorem render_plain_finite_ne {word : String} {c : Char} (hword : c ∈ word.toList)
    (hdigit : c.isDigit = false) (hother : c ≠ '.' ∧ c ≠ '-') (negative : Bool) (m e : ℕ)
    (canonical : Binary64.Canonical m e) :
    plain.render (.finite negative m e canonical) ≠ word := by
  rintro rfl
  rw [render_plain_finite, String.toList_append] at hword
  rcases List.mem_append.mp hword with hsign | hbody
  · cases negative with
    | false => cases hsign
    | true => exact hother.2 (List.mem_singleton.mp hsign)
  · rcases isDigit_of_mem_magnitudeText hbody with hc | hc
    · exact Bool.false_ne_true (hdigit.symm.trans hc)
    · exact hother.1 hc

/-- A magnitude has no sign. -/
theorem magnitudeText_ne_append (m e : ℕ) (s : String) : magnitudeText m e ≠ "-" ++ s := by
  intro h
  have hsign : '-' ∈ (magnitudeText m e).toList := by
    rw [h, String.toList_append]
    exact List.mem_append_left _ List.mem_cons_self
  rcases isDigit_of_mem_magnitudeText hsign with hc | hc
  · exact absurd hc (by decide)
  · exact absurd hc (by decide)

/-- **The plain text of a floating-point number determines it**, the sign of a zero included. -/
theorem render_plain_inj {x y : Binary64} (h : plain.render x = plain.render y) : x = y := by
  have hnan : ∀ negative m e canonical,
      plain.render (.finite negative m e canonical) ≠ plain.render .nan :=
    render_plain_finite_ne (c := 'N') (by decide) (by decide) (by decide)
  have hinfinite : ∀ sign negative m e canonical,
      plain.render (.finite negative m e canonical) ≠ plain.render (.infinite sign) := fun sign =>
    render_plain_finite_ne (c := 'n') (by cases sign <;> decide) (by decide) (by decide)
  cases x with
  | nan =>
    cases y with
    | nan => rfl
    | infinite sign => cases sign <;> exact absurd h (by decide)
    | finite => exact absurd h.symm (hnan _ _ _ _)
  | infinite sign =>
    cases y with
    | nan => cases sign <;> exact absurd h (by decide)
    | infinite other =>
      cases sign <;> cases other
      · rfl
      · exact absurd h (by decide)
      · exact absurd h (by decide)
      · rfl
    | finite => exact absurd h.symm (hinfinite _ _ _ _ _)
  | finite negative m e hm =>
    cases y with
    | nan => exact absurd h (hnan _ _ _ _)
    | infinite => exact absurd h (hinfinite _ _ _ _ _)
    | finite other n f hn =>
      rw [render_plain_finite, render_plain_finite] at h
      have hsigns : negative = other ∧ magnitudeText m e = magnitudeText n f := by
        cases negative <;> cases other
        · exact ⟨rfl, by simpa using h⟩
        · exact absurd (by simpa using h) (magnitudeText_ne_append m e (magnitudeText n f))
        · exact absurd (by simpa using h.symm) (magnitudeText_ne_append n f (magnitudeText m e))
        · exact ⟨rfl, by simpa using h⟩
      obtain ⟨rfl, hbodies⟩ := hsigns
      obtain ⟨rfl, rfl⟩ := magnitudeText_inj hm hn hbodies
      rfl

end FloatStyle

end RowGraph
