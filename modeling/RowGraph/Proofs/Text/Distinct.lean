import Mathlib.Data.List.Basic
import RowGraph.Calendar
import RowGraph.Proofs.Text.Numerals
import RowGraph.Uuid

/-!
# Texts that tell values apart

Bytes, identifiers and dates are written so that different ones have different texts. Where the
parts of a text have fixed widths they are told apart by their places; a year is told from the rest
by the width of what stands behind it, and fractions of a second by their own widths.

Times of day are not always told apart: a leap second is written as the second after its own. Only
the second 60 cannot be mistaken, as no other second is written so.

Results:
* `hexOfBytes_inj`, `Uuid.text_inj`: bytes and identifiers.
* `Date.text_inj`: dates, over all years.
* `Time.text_eq_iff`: the times of day that are written alike.
* `DateTime.text_eq_iff`: both together.
-/

namespace RowGraph

namespace Text

/-- Parts of the same widths are told apart by their places. -/
theorem flatten_inj {α : Type} {as bs : List (List α)}
    (hwidths : as.map List.length = bs.map List.length) (h : as.flatten = bs.flatten) :
    as = bs := by
  induction as generalizing bs with
  | nil => exact (List.map_eq_nil_iff.mp hwidths.symm).symm
  | cons a rest ih =>
    cases bs with
    | nil => cases hwidths
    | cons b others =>
      obtain ⟨hwidth, hothers⟩ := List.cons.inj hwidths
      obtain ⟨rfl, hrest⟩ := List.append_inj h hwidth
      rw [ih hothers hrest]

theorem hexOfBytes_inj {bs cs : List UInt8} (h : hexOfBytes bs = hexOfBytes cs) : bs = cs := by
  have hread := bytesOfHex?_flatMap_hexDigits bs
  rw [String.ofList_inj.mp h, bytesOfHex?_flatMap_hexDigits] at hread
  exact (Option.some.inj hread).symm

end Text

/-! ## Identifiers -/

namespace Uuid

/-- The groups of digits of an identifier. -/
def groups {α : Type} (digits : List α) : List (List α) :=
  [digits.take 8, (digits.drop 8).take 4, (digits.drop 12).take 4, (digits.drop 16).take 4,
    digits.drop 20]

theorem flatten_groups {α : Type} (digits : List α) : (groups digits).flatten = digits := by
  have hgroup : ∀ a b, (digits.drop a).take b ++ digits.drop (a + b) = digits.drop a :=
    fun a b => by rw [← List.drop_drop, List.take_append_drop]
  simp only [groups, List.flatten_cons, List.flatten_nil, List.append_nil]
  rw [hgroup 16 4, hgroup 12 4, hgroup 8 4, List.take_append_drop]

/-- The text is the groups with hyphens between them. -/
theorem toList_text (u : Uuid) :
    u.text.toList = ((groups (Text.hexDigits 32 u.bits.toNat)).intersperse ['-']).flatten := by
  have hlast : ((Text.hexDigits 32 u.bits.toNat).drop 20).take 12 =
      (Text.hexDigits 32 u.bits.toNat).drop 20 :=
    List.take_of_length_le (by simp)
  simp [text, groups, hlast]

theorem text_inj {u v : Uuid} (h : u.text = v.text) : u = v := by
  have hlists := congrArg String.toList h
  rw [toList_text, toList_text] at hlists
  have hgroups := Text.flatten_inj (by simp [groups]) hlists
  have hdigits : Text.hexDigits 32 u.bits.toNat = Text.hexDigits 32 v.bits.toNat := by
    rw [← flatten_groups (Text.hexDigits 32 u.bits.toNat),
      ← flatten_groups (Text.hexDigits 32 v.bits.toNat)]
    simp only [groups, List.intersperse_cons_cons, List.intersperse_singleton, List.cons.injEq,
      and_true, true_and] at hgroups ⊢
    obtain ⟨ha, hb, hc, hd, he⟩ := hgroups
    simp only [ha, hb, hc, hd, he]
  have hread := Text.hexNumber?_hexDigits 32 u.bits.toNat
  rw [hdigits, Text.hexNumber?_hexDigits] at hread
  have hbits : v.bits.toNat % Nat.pow 16 32 = u.bits.toNat % Nat.pow 16 32 := Option.some.inj hread
  have hmod : ∀ x : Uuid, x.bits.toNat % Nat.pow 16 32 = x.bits.toNat := fun x =>
    Nat.mod_eq_of_lt (Nat.lt_of_lt_of_eq x.bits.isLt (by decide))
  rw [hmod, hmod] at hbits
  cases u
  cases v
  exact congrArg Uuid.mk (BitVec.eq_of_toNat_eq hbits.symm)

end Uuid

/-! ## Dates -/

namespace Date

theorem yearText_of_signed {y : Int} (h : ¬ (0 ≤ y ∧ y ≤ 9999)) :
    ∃ sign : Char, sign.isDigit = false ∧ (sign = '-' ↔ y < 0) ∧
      yearText y = String.singleton sign ++ Text.padded 4 y.natAbs := by
  rw [yearText, if_neg h]
  split
  · next hy => exact ⟨'-', rfl, iff_of_true rfl hy, rfl⟩
  · next hy => exact ⟨'+', rfl, iff_of_false (by decide) hy, rfl⟩

theorem yearText_inj {y z : Int} (h : yearText y = yearText z) : y = z := by
  by_cases hy : 0 ≤ y ∧ y ≤ 9999 <;> by_cases hz : 0 ≤ z ∧ z ≤ 9999
  · rw [yearText, yearText, if_pos hy, if_pos hz] at h
    have habs := Text.padded_inj h
    omega
  · obtain ⟨sign, hsign, -, hyear⟩ := yearText_of_signed hz
    rw [yearText, if_pos hy, hyear] at h
    exact (Text.padded_ne_append sign hsign h).elim
  · obtain ⟨sign, hsign, -, hyear⟩ := yearText_of_signed hy
    rw [hyear, yearText, if_pos hz] at h
    exact (Text.padded_ne_append sign hsign h.symm).elim
  · obtain ⟨sign, -, hminus, hyear⟩ := yearText_of_signed hy
    obtain ⟨other, -, hminus', hyear'⟩ := yearText_of_signed hz
    rw [hyear, hyear'] at h
    have hlists := congrArg String.toList h
    simp only [String.toList_append, String.toList_singleton, List.singleton_append] at hlists
    obtain ⟨rfl, habs⟩ := List.cons.inj hlists
    have habs := Text.padded_inj (String.toList_inj.mp habs)
    have hneg : y < 0 ↔ z < 0 := hminus.symm.trans hminus'
    omega

theorem notMem_yearText {c : Char} (hdigit : c.isDigit = false) (hsign : c ≠ '-' ∧ c ≠ '+')
    (y : Int) : c ∉ (yearText y).toList := by
  by_cases hy : 0 ≤ y ∧ y ≤ 9999
  · rw [yearText, if_pos hy]
    exact Text.notMem_padded hdigit 4 _
  · rw [yearText, if_neg hy, String.toList_append, List.mem_append, not_or]
    refine ⟨?_, Text.notMem_padded hdigit 4 _⟩
    split
    · simpa using hsign.1
    · simpa using hsign.2

theorem toList_text (d : Date) :
    d.text.toList = (yearText d.year).toList ++ [['-'], (Text.padded 2 d.month).toList, ['-'],
      (Text.padded 2 d.day).toList].flatten := by
  simp [text]

theorem length_month (d : Date) : (Text.padded 2 d.month).toList.length = 2 :=
  Text.length_padded (by decide) (by have h := d.month_le; omega)

theorem length_day (d : Date) : (Text.padded 2 d.day).toList.length = 2 :=
  Text.length_padded (by decide) (by have h := d.day_le; omega)

theorem blank_notMem_text (d : Date) : ' ' ∉ d.text.toList := by
  have hyear : ' ' ∉ (yearText d.year).toList := notMem_yearText rfl (by decide) _
  have hpadded : ∀ width n, ' ' ∉ (Text.padded width n).toList := Text.notMem_padded rfl
  simp [toList_text, hyear, hpadded]

theorem text_inj {d e : Date} (h : d.text = e.text) : d = e := by
  have hlists := congrArg String.toList h
  rw [toList_text, toList_text] at hlists
  obtain ⟨hyear, hrest⟩ := List.append_inj' hlists
    (by simp [length_month, length_day])
  have hparts := Text.flatten_inj (by simp [length_month, length_day]) hrest
  simp only [List.cons.injEq, true_and, and_true] at hparts
  obtain ⟨hmonth, hday⟩ := hparts
  have years := yearText_inj (String.toList_inj.mp hyear)
  have months := Text.padded_inj (String.toList_inj.mp hmonth)
  have days := Text.padded_inj (String.toList_inj.mp hday)
  cases d
  cases e
  cases years
  cases months
  cases days
  rfl

end Date

/-! ## Times -/

namespace Time

theorem valid_iff (t : Time) :
    t.hour < 24 ∧ t.minute < 60 ∧ t.second < 60 ∧ t.nano < 2000000000 := by
  have h := t.valid
  simp only [isValid, Bool.and_eq_true, decide_eq_true_eq] at h
  exact ⟨h.1.1.1, h.1.1.2, h.1.2, h.2⟩

/-- The first time lies in the leap second of a second that is not the last of a minute, and the
other one, with the same fraction, in the second after it. -/
def leaps (t u : Time) : Bool :=
  t.hour = u.hour && t.minute = u.minute && t.second + 1 = u.second &&
    t.nano = u.nano + 1000000000

/-- The nanoseconds that a fraction writes: its unit is a matter of its width. -/
def fractionValue (cs : List Char) : Nat :=
  Nat.ofDigitChars 10 (cs.drop 1) 0 * 10 ^ (9 - (cs.drop 1).length)

theorem fractionValue_fractionText {n : Nat} (h : n < 1000000000) :
    fractionValue (fractionText n).toList = n := by
  have hpadded : ∀ width k, 0 < width → k < 10 ^ width →
      fractionValue ("." ++ Text.padded width k).toList = k * 10 ^ (9 - width) := by
    intro width k hwidth hk
    have hdrop : ("." ++ Text.padded width k).toList.drop 1 = (Text.padded width k).toList := by
      rw [String.toList_append]
      rfl
    rw [fractionValue, hdrop, (Text.denotes_padded width k).2, Text.length_padded hwidth hk]
  rw [fractionText]
  split
  · next hzero =>
    rw [hzero]
    rfl
  · split
    · next hmilli =>
      rw [hpadded 3 _ (by decide) (by omega)]
      exact Nat.div_mul_cancel (Nat.dvd_of_mod_eq_zero hmilli)
    · split
      · next hmicro =>
        rw [hpadded 6 _ (by decide) (by omega)]
        exact Nat.div_mul_cancel (Nat.dvd_of_mod_eq_zero hmicro)
      · rw [hpadded 9 _ (by decide) h]
        exact Nat.mul_one n

theorem fractionText_inj {n k : Nat} (hn : n < 1000000000) (hk : k < 1000000000)
    (h : fractionText n = fractionText k) : n = k := by
  rw [← fractionValue_fractionText hn, h, fractionValue_fractionText hk]

theorem toList_text (t : Time) :
    t.text.toList = [(Text.padded 2 t.hour).toList, [':'], (Text.padded 2 t.minute).toList, [':'],
      (Text.padded 2 (t.second + t.nano / 1000000000)).toList].flatten ++
        (fractionText (t.nano % 1000000000)).toList := by
  simp [text]

/-- Hours, minutes and seconds, the leap second included, have two digits. -/
theorem length_parts (t : Time) : (Text.padded 2 t.hour).toList.length = 2 ∧
    (Text.padded 2 t.minute).toList.length = 2 ∧
    (Text.padded 2 (t.second + t.nano / 1000000000)).toList.length = 2 := by
  have h := t.valid_iff
  exact ⟨Text.length_padded (by decide) (by omega), Text.length_padded (by decide) (by omega),
    Text.length_padded (by decide) (by omega)⟩

theorem blank_notMem_text (t : Time) : ' ' ∉ t.text.toList := by
  have hpadded : ∀ width n, ' ' ∉ (Text.padded width n).toList := Text.notMem_padded rfl
  have hfraction : ∀ n, ' ' ∉ (fractionText n).toList := fun n => by
    unfold fractionText
    split_ifs <;> simp [hpadded]
  simp [toList_text, hpadded, hfraction]

/-- What the text of a time says: the leap second is added to the seconds. -/
theorem text_eq_iff_parts {t u : Time} : t.text = u.text ↔
    t.hour = u.hour ∧ t.minute = u.minute ∧
      t.second + t.nano / 1000000000 = u.second + u.nano / 1000000000 ∧
      t.nano % 1000000000 = u.nano % 1000000000 := by
  constructor
  · intro h
    have hlists := congrArg String.toList h
    rw [toList_text, toList_text] at hlists
    obtain ⟨hparts, hfraction⟩ := List.append_inj hlists
      (by simp [t.length_parts, u.length_parts])
    have hclock := Text.flatten_inj (by simp [t.length_parts, u.length_parts]) hparts
    simp only [List.cons.injEq, true_and, and_true] at hclock
    obtain ⟨hhour, hminute, hsecond⟩ := hclock
    exact ⟨Text.padded_inj (String.toList_inj.mp hhour),
      Text.padded_inj (String.toList_inj.mp hminute),
      Text.padded_inj (String.toList_inj.mp hsecond),
      fractionText_inj (Nat.mod_lt _ (by decide)) (Nat.mod_lt _ (by decide))
        (String.toList_inj.mp hfraction)⟩
  · rintro ⟨hhour, hminute, hsecond, hfraction⟩
    rw [text, text, hhour, hminute, hsecond, hfraction]

/-- **Times that are written alike** are the same, or one is a leap second and the other one lies in
the second after its own. -/
theorem text_eq_iff {t u : Time} :
    t.text = u.text ↔ t = u ∨ t.leaps u = true ∨ u.leaps t = true := by
  have ht := t.valid_iff
  have hu := u.valid_iff
  simp only [text_eq_iff_parts, leaps, Bool.and_eq_true, decide_eq_true_eq]
  constructor
  · rintro ⟨hhour, hminute, hsecond, hfraction⟩
    -- the whole seconds among the nanoseconds are none or one on either side
    by_cases hnano : t.nano = u.nano
    · refine .inl ?_
      have hseconds : t.second = u.second := by omega
      cases t
      cases u
      cases hhour
      cases hminute
      cases hseconds
      cases hnano
      rfl
    · right
      omega
  · rintro (rfl | ⟨⟨⟨hhour, hminute⟩, hsecond⟩, hnano⟩ | ⟨⟨⟨hhour, hminute⟩, hsecond⟩, hnano⟩)
    · exact ⟨rfl, rfl, rfl, rfl⟩
    · omega
    · omega

end Time

namespace DateTime

/-- On one day, one of the times is a leap second and the other one lies in the second after it. -/
def leaps (t u : DateTime) : Bool :=
  t.date = u.date && (t.time.leaps u.time || u.time.leaps t.time)

theorem text_eq_iff {t u : DateTime} : t.text = u.text ↔ t = u ∨ t.leaps u = true := by
  have hsplit : t.text = u.text ↔ t.date = u.date ∧ t.time.text = u.time.text := by
    constructor
    · intro h
      have hlists : t.date.text.toList ++ ' ' :: t.time.text.toList =
          u.date.text.toList ++ ' ' :: u.time.text.toList := by
        simpa [text, textWith] using congrArg String.toList h
      obtain ⟨hdate, -, htime⟩ := (List.append_cons_inj_of_notMem t.date.blank_notMem_text
        t.time.blank_notMem_text).mp hlists
      exact ⟨Date.text_inj (String.toList_inj.mp hdate), String.toList_inj.mp htime⟩
    · rintro ⟨hdate, htime⟩
      rw [text, text, textWith, textWith, hdate, htime]
  have hequal : t = u ↔ t.date = u.date ∧ t.time = u.time := by
    cases t
    cases u
    simp
  rw [hsplit, Time.text_eq_iff, hequal, leaps, Bool.and_eq_true, Bool.or_eq_true,
    decide_eq_true_eq, ← and_or_left]

theorem not_leaps_self (t : DateTime) : t.leaps t = false := by
  simp [leaps, Time.leaps]

end DateTime

end RowGraph
