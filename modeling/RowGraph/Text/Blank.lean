import RowGraph.Text.Ranges

/-!
# White space

The characters with the property "white space".
-/

namespace RowGraph.Text

/-- The white space of the character standard. -/
def blankRanges : Ranges :=
  [(0x9, 0xd), (0x20, 0x20), (0x85, 0x85), (0xa0, 0xa0), (0x1680, 0x1680), (0x2000, 0x200a),
    (0x2028, 0x2029), (0x202f, 0x202f), (0x205f, 0x205f), (0x3000, 0x3000)]

/-- Whether the character is white space. -/
def isBlank (c : Char) : Bool := blankRanges.contains c

/-- The characters from the first one that is not white space. -/
def skipBlanks (cs : List Char) : List Char := cs.dropWhile isBlank

end RowGraph.Text
