import Mathlib.Algebra.Ring.Nat
import RowGraph.Text.Decimal

/-!
# Numerals

A number is written in digits, and the digits determine it.

Results:
* `digitsNumber?_eq_some_iff`: which texts are read as a number, and as which.
* `padded_inj`, `ofInt_inj`: different numbers are written differently.
-/

namespace RowGraph.Text

/-- The characters are digits of ASCII and write the number, zeros in front or not. -/
def Denotes (cs : List Char) (n : Nat) : Prop :=
  (∀ c ∈ cs, c.isDigit = true) ∧ Nat.ofDigitChars 10 cs 0 = n

theorem foldlM_digits_eq_some_iff {cs : List Char} {start n : Nat} :
    cs.foldlM (fun n c => (digitValue? c).map (10 * n + ·)) start = some n ↔
      (∀ c ∈ cs, c.isDigit = true) ∧ Nat.ofDigitChars 10 cs start = n := by
  induction cs generalizing start with
  | nil => simp
  | cons c cs ih =>
    rw [List.foldlM_cons, digitValue?]
    by_cases digit : c.isDigit = true
    · simp [digit, ih, Nat.ofDigitChars_cons]
    · simp [digit]

/-- A text is read as the number that it denotes, and as nothing if it denotes none. -/
theorem digitsNumber?_eq_some_iff {cs : List Char} {n : Nat} :
    digitsNumber? cs = some n ↔ Denotes cs n :=
  foldlM_digits_eq_some_iff

/-! ## Numbers as they are written -/

theorem toList_padded (width n : Nat) : (padded width n).toList =
    List.replicate (width - (Nat.toDigits 10 n).length) '0' ++ Nat.toDigits 10 n := by
  rw [padded, String.toList_ofList]

theorem denotes_padded (width n : Nat) : Denotes (padded width n).toList n := by
  rw [toList_padded]
  refine ⟨fun c hc => ?_, ?_⟩
  · rcases List.mem_append.mp hc with hzero | hdigit
    · rw [List.eq_of_mem_replicate hzero]
      rfl
    · exact Nat.isDigit_of_mem_toDigits (by decide) (by decide) hdigit
  · rw [Nat.ofDigitChars_append, Nat.ofDigitChars_replicate_zero, Nat.mul_zero,
      Nat.ofDigitChars_ten_toDigits]

theorem padded_inj {width n k : Nat} (h : padded width n = padded width k) : n = k := by
  rw [← (denotes_padded width n).2, h, (denotes_padded width k).2]

theorem notMem_padded {c : Char} (h : c.isDigit = false) (width n : Nat) :
    c ∉ (padded width n).toList :=
  fun hc => Bool.false_ne_true (h.symm.trans ((denotes_padded width n).1 c hc))

/-- A number that needs no more digits is written in exactly as many. -/
theorem length_padded {width n : Nat} (hwidth : 0 < width) (h : n < 10 ^ width) :
    (padded width n).toList.length = width := by
  have hle : (Nat.toDigits 10 n).length ≤ width :=
    (Nat.length_toDigits_le_iff (by decide) hwidth).mpr h
  rw [toList_padded, List.length_append, List.length_replicate, Nat.sub_add_cancel hle]

/-- The first character is a digit. -/
theorem exists_padded_eq_cons (width n : Nat) :
    ∃ c rest, (padded width n).toList = c :: rest ∧ c.isDigit = true := by
  have hne : (padded width n).toList ≠ [] := by
    rw [toList_padded]
    exact List.append_ne_nil_of_right_ne_nil _ Nat.toDigits_ne_nil
  obtain ⟨c, rest, h⟩ := List.exists_cons_of_ne_nil hne
  exact ⟨c, rest, h, (denotes_padded width n).1 c (h ▸ List.mem_cons_self)⟩

theorem ofInt_eq (i : Int) : ofInt i = (if i < 0 then "-" else "") ++ padded 0 i.natAbs := by
  have hrepr : Nat.repr i.natAbs = padded 0 i.natAbs := by
    rw [Nat.repr_eq_ofList_toDigits, padded, Nat.zero_sub, List.replicate_zero, List.nil_append]
  rw [ofInt, hrepr]
  split
  · rfl
  · exact (String.empty_append).symm

/-- A text that begins with a sign is not one that begins with a digit. -/
theorem padded_ne_append {width other n k : Nat} (sign : Char) (h : sign.isDigit = false) :
    padded width n ≠ String.singleton sign ++ padded other k := by
  intro same
  obtain ⟨c, rest, hc, hdigit⟩ := exists_padded_eq_cons width n
  have hlist := congrArg String.toList same
  rw [hc, String.toList_append, String.toList_singleton] at hlist
  rw [(List.cons.inj hlist).1, h] at hdigit
  cases hdigit

theorem ofInt_inj {i j : Int} (h : ofInt i = ofInt j) : i = j := by
  rw [ofInt_eq, ofInt_eq] at h
  by_cases hi : i < 0 <;> by_cases hj : j < 0
  · rw [if_pos hi, if_pos hj] at h
    have habs := padded_inj (String.append_right_inj _ |>.mp h)
    omega
  · rw [if_pos hi, if_neg hj, String.empty_append] at h
    exact (padded_ne_append '-' (by decide) h.symm).elim
  · rw [if_neg hi, if_pos hj, String.empty_append] at h
    exact (padded_ne_append '-' (by decide) h).elim
  · rw [if_neg hi, if_neg hj, String.empty_append, String.empty_append] at h
    have habs := padded_inj h
    omega

end RowGraph.Text
