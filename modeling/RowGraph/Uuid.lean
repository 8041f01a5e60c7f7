import RowGraph.Text.Hex

/-!
# Universally unique identifiers

An identifier is a number of 128 bits. It is written as thirty-two small hexadecimal digits in
five groups; it is read in digits of either case, with or without the hyphens, in braces, or as a
resource name, whose letters also have either case.

Modelled: identifiers as values hold them: their text, and how a text is read.

Left out: versions and variants, and making new ones.
-/

namespace RowGraph

/-- A universally unique identifier. -/
structure Uuid where
  bits : BitVec 128
deriving DecidableEq

namespace Uuid

/-- The identifier whose bits are all zero. -/
def nil : Uuid := ⟨0⟩

/-- The thirty-two digits in groups of eight, four, four, four and twelve. -/
def text (u : Uuid) : String :=
  let digits := Text.hexDigits 32 u.bits.toNat
  let group (first count : Nat) := String.ofList ((digits.drop first).take count)
  group 0 8 ++ "-" ++ group 8 4 ++ "-" ++ group 12 4 ++ "-" ++ group 16 4 ++ "-" ++ group 20 12

/-- The identifier written by thirty-two hexadecimal digits. -/
def ofDigits? (cs : List Char) : Option Uuid :=
  if cs.length = 32 then (Text.hexNumber? cs).map fun n => ⟨BitVec.ofNat 128 n⟩ else none

/-- The identifier written in five groups with hyphens. -/
def ofGroups? (cs : List Char) : Option Uuid :=
  if cs.length = 36 && [8, 13, 18, 23].all (fun i => cs[i]? == some '-') then
    ofDigits? (cs.take 8 ++ (cs.drop 9).take 4 ++ (cs.drop 14).take 4 ++ (cs.drop 19).take 4 ++
      cs.drop 24)
  else none

/-- The identifier that a text writes. -/
def read? (s : String) : Option Uuid :=
  let cs := s.toList
  let name := "urn:uuid:".toList
  if cs.length = 32 then ofDigits? cs
  else if cs.length = 36 then ofGroups? cs
  else if cs.length = 38 && cs.head? == some '{' && cs.getLast? == some '}' then
    ofGroups? ((cs.drop 1).take 36)
  else if cs.length = 45 && (cs.take 9).map Char.toLower == name then ofGroups? (cs.drop 9)
  else none

end Uuid

end RowGraph
