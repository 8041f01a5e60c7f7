/-!
# Quoted names and strings

A text in quotes has its closing quote written twice wherever it occurs inside, so the first closing
quote that stands alone ends it.

Main statement: `count_doubled`, a quote is written twice and all else once.

Modelled: `quote_string` (`stringLiteral`), and what the dialects have in common when they quote
names.
-/

namespace RowGraph.Text

/-- The characters with each `quote` written twice. -/
def doubled (quote : Char) : List Char → List Char
  | [] => []
  | c :: rest => if c = quote then c :: c :: doubled quote rest else c :: doubled quote rest

/-- The text between two quotes, the closing one doubled inside. -/
def enclosed (opening closing : Char) (s : String) : String :=
  .ofList (opening :: doubled closing s.toList ++ [closing])

/-- A string literal in single quotes. -/
def stringLiteral (s : String) : String := enclosed '\'' '\'' s

theorem count_doubled (quote c : Char) (cs : List Char) :
    (doubled quote cs).count c = (if c = quote then 2 else 1) * cs.count c := by
  induction cs with
  | nil => simp [doubled]
  | cons d rest ih =>
    by_cases hd : d = quote <;> by_cases hc : c = d <;> grind [doubled]

end RowGraph.Text
