import RowGraph.Text.LowerCaseTable

/-!
# Lower-casing

The small form of a text, letter by letter. Two rules go beyond the table: the dotted capital I
becomes two characters, and a capital sigma becomes the final sigma at the end of a word, that is,
when a letter stands before it and none after it, marks skipped.

Main statement: `smallLetters_ascii`, ASCII letters follow the ASCII rule.
-/

namespace RowGraph.Text

/-- The small form of a character taken by itself. -/
def smallLetters (c : Char) : List Char :=
  if c.toNat < 128 then [c.toLower]
  else if c = '\u0130' then ['i', '\u0307']
  else
    match lowerCaseRuns.find? fun (first, last, stride, _) =>
        first ≤ c.toNat && c.toNat ≤ last && (c.toNat - first) % stride == 0 with
    | some (_, _, _, shift) => [Char.ofNat (c.toNat + shift).toNat]
    | none => [c]

theorem smallLetters_ascii {c : Char} (h : c.toNat < 128) : smallLetters c = [c.toLower] := by
  simp [smallLetters, h]

/-- Whether the first character that is not skipped is a letter with case. -/
def startsCased (cs : List Char) : Bool :=
  match cs.dropWhile caseIgnorable.contains with
  | c :: _ => casedLetters.contains c
  | [] => false

/-- The small form of the characters `cs`, where `before` are those already passed, last first. -/
def lowerFrom (before : List Char) : List Char → List Char
  | [] => []
  | c :: rest =>
    (if c = 'Σ' then
      [if startsCased before && !startsCased rest then 'ς' else 'σ']
    else smallLetters c) ++ lowerFrom (c :: before) rest

/-- The text in small letters. -/
def lowerCase (s : String) : String :=
  .ofList (lowerFrom [] s.toList)

end RowGraph.Text
