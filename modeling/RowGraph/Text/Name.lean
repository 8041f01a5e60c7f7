/-!
# Comparing names without regard to ASCII letter case

Tables, columns, aliases, fields and references are looked up by names whose ASCII letters match
in either case; all other characters must be equal.

Main statements: `sameName_iff`, and `sameName` is an equivalence.
-/

namespace RowGraph.Text

/-- The text with its ASCII capitals made small; all other characters stay. -/
def asciiLower (s : String) : String :=
  .ofList (s.toList.map Char.toLower)

/-- Whether two names are equal up to the case of their ASCII letters. -/
def sameName (a b : String) : Bool :=
  asciiLower a == asciiLower b

theorem sameName_iff {a b : String} : sameName a b = true ↔ asciiLower a = asciiLower b := by
  simp [sameName]

@[simp] theorem sameName_refl (a : String) : sameName a a = true := by simp [sameName]

theorem sameName_symm {a b : String} (h : sameName a b = true) : sameName b a = true := by
  simp_all [sameName_iff]

theorem sameName_trans {a b c : String} (h : sameName a b = true) (k : sameName b c = true) :
    sameName a c = true := by
  simp_all [sameName_iff]

end RowGraph.Text
