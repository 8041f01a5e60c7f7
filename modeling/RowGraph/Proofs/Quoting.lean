import RowGraph.Dialect.Basic

/-!
# Names in quotes end where they end

A reader that starts behind an opening quote and stops at the first closing quote that is not
doubled finds the name that was quoted, as long as what follows does not begin with a closing quote.
It reads any symbols, the characters of a text or those of a fragment.

Results:
* `readQuoted_doubled`: a quoted name is read back, and the reader stops right behind it.
* `doubled_inj`: what begins with a quoted name says which one.
* `readEnclosed_eq_some_iff`: a text is read as another one in quotes exactly if it begins with it
  and no closing quote follows.
* **`Dialect.quotes_read_back`**: so it is for the names of every dialect and for its texts.
-/

namespace RowGraph.Text

variable {α : Type}

section Reader

variable [DecidableEq α]

/-- What stands before the first quote that is not doubled, with the doubled ones read once, and
what follows that quote. -/
def readQuoted (quote : α) : List α → Option (List α × List α)
  | [] => none
  | c :: rest =>
    if c = quote then
      match rest with
      | [] => some ([], [])
      | next :: after =>
        if next = quote then (readQuoted quote after).map fun (name, last) => (c :: name, last)
        else some ([], next :: after)
    else (readQuoted quote rest).map fun (name, last) => (c :: name, last)

theorem readQuoted_of_ne {quote c : α} (h : c ≠ quote) (rest : List α) :
    readQuoted quote (c :: rest) =
      (readQuoted quote rest).map fun (name, last) => (c :: name, last) := by
  cases rest <;> simp [readQuoted, h]

/-- A quoted text is read back. -/
theorem readQuoted_doubled {symbol : Char → α} (inj : ∀ a b, symbol a = symbol b → a = b)
    (quote : Char) (cs : List Char) {rest : List α} (h : rest.head? ≠ some (symbol quote)) :
    readQuoted (symbol quote) ((doubled quote cs).map symbol ++ symbol quote :: rest) =
      some (cs.map symbol, rest) := by
  induction cs with
  | nil =>
    cases rest with
    | nil => simp [doubled, readQuoted]
    | cons next after =>
      have alone : next ≠ symbol quote := fun same => h (by rw [same]; rfl)
      simp [doubled, readQuoted, alone]
  | cons c cs ih =>
    by_cases hc : c = quote
    · subst hc
      simp [doubled, readQuoted, ih]
    · have other : symbol c ≠ symbol quote := fun same => hc (inj _ _ same)
      simp [doubled, hc, readQuoted_of_ne other, ih]

example : readQuoted 'q' ['a', 'q', 'q', 'b', 'q', '.'] = some (['a', 'q', 'b'], ['.']) := by
  decide

end Reader

/-- What begins with a quoted text says which text it is, and what follows. -/
theorem doubled_inj {symbol : Char → α} (inj : ∀ a b, symbol a = symbol b → a = b) {quote : Char}
    {cs ds : List Char} {r s : List α} (hr : r.head? ≠ some (symbol quote))
    (hs : s.head? ≠ some (symbol quote))
    (h : (doubled quote cs).map symbol ++ symbol quote :: r =
      (doubled quote ds).map symbol ++ symbol quote :: s) :
    cs = ds ∧ r = s := by
  classical
  have read := readQuoted_doubled inj quote cs hr
  rw [h, readQuoted_doubled inj quote ds hs] at read
  obtain ⟨names, rests⟩ := Prod.mk.inj (Option.some.inj read)
  exact ⟨(List.map_inj_right fun a b => inj a b).mp names.symm, rests.symm⟩

/-! ## Texts that begin with a quote -/

/-- What stands between these quotes at the beginning of a text, and what follows. -/
def readEnclosed (opening closing : Char) (text : String) : Option (String × String) :=
  match text.toList with
  | [] => none
  | c :: inner =>
    if c = opening then
      (readQuoted closing inner).map fun (name, rest) => (.ofList name, .ofList rest)
    else none

example : readEnclosed '[' ']' "[a]]b] = 1" = some ("a]b", " = 1") := by cbv

theorem toList_enclosed (opening closing : Char) (s : String) :
    (enclosed opening closing s).toList = opening :: doubled closing s.toList ++ [closing] := by
  simp [enclosed]

/-- The reader finds nothing but what was quoted. -/
theorem eq_of_readQuoted {quote : Char} {text name rest : List Char}
    (h : readQuoted quote text = some (name, rest)) :
    text = doubled quote name ++ quote :: rest ∧ rest.head? ≠ some quote := by
  fun_induction readQuoted quote text generalizing name with
  | case1 => cases h
  | case2 =>
    cases h
    exact ⟨rfl, by simp⟩
  | case3 after ih =>
    obtain ⟨⟨inner, last⟩, read, same⟩ := Option.map_eq_some_iff.mp h
    cases same
    obtain ⟨rfl, alone⟩ := ih read
    exact ⟨by simp [doubled], alone⟩
  | case4 next after other =>
    cases h
    exact ⟨rfl, by simpa using other⟩
  | case5 c tail other ih =>
    obtain ⟨⟨inner, last⟩, read, same⟩ := Option.map_eq_some_iff.mp h
    cases same
    obtain ⟨rfl, alone⟩ := ih read
    exact ⟨by simp [doubled, other], alone⟩

/-- **Reading undoes quoting, and nothing else is read.** -/
theorem readEnclosed_eq_some_iff {opening closing : Char} {text s rest : String} :
    readEnclosed opening closing text = some (s, rest) ↔
      text = enclosed opening closing s ++ rest ∧ rest.toList.head? ≠ some closing := by
  constructor
  · intro h
    unfold readEnclosed at h
    split at h
    · cases h
    · next c inner chars =>
      split at h
      · next opened =>
        obtain ⟨⟨name, last⟩, read, same⟩ := Option.map_eq_some_iff.mp h
        cases same
        obtain ⟨rfl, alone⟩ := eq_of_readQuoted read
        refine ⟨String.toList_inj.mp ?_, by simpa using alone⟩
        rw [chars, opened, String.toList_append, toList_enclosed]
        simp
      · cases h
  · rintro ⟨rfl, alone⟩
    have read := @readQuoted_doubled Char _ id (fun _ _ same => same) closing s.toList _ alone
    simp only [List.map_id_fun, id] at read
    simp [readEnclosed, toList_enclosed, read]

/-- A text that begins with a quoted one says which one, and what follows. -/
theorem enclosed_append_inj {opening closing : Char} {s s' rest rest' : String}
    (h : rest.toList.head? ≠ some closing) (h' : rest'.toList.head? ≠ some closing)
    (same : enclosed opening closing s ++ rest = enclosed opening closing s' ++ rest') :
    s = s' ∧ rest = rest' := by
  have read : readEnclosed opening closing (enclosed opening closing s ++ rest) = some (s, rest) :=
    readEnclosed_eq_some_iff.mpr ⟨rfl, h⟩
  rw [readEnclosed_eq_some_iff.mpr ⟨same, h'⟩] at read
  obtain ⟨rfl, rfl⟩ := Prod.mk.inj (Option.some.inj read)
  exact ⟨rfl, rfl⟩

theorem enclosed_injective (opening closing : Char) :
    Function.Injective (enclosed opening closing) := by
  intro s s' same
  have last : ("" : String).toList.head? ≠ some closing := by simp
  exact (enclosed_append_inj last last (congrArg (· ++ "") same)).1

end RowGraph.Text

namespace RowGraph.Dialect

open Text

/-- **Quotes say where a name or a text ends, and which one it is**: behind the opening quote, a
reader that goes to the first closing quote that is not doubled finds the name and what follows it,
whatever the name is made of, if no other closing quote follows; and it finds nothing that was not
quoted so. The same holds of texts, which every dialect writes alike. So no name and no text ends
its own quotes, and none is written as another one. -/
theorem quotes_read_back (d : Dialect) :
    (∀ text name rest, readEnclosed d.openingQuote d.closingQuote text = some (name, rest) ↔
      text = d.quoteName name ++ rest ∧ rest.toList.head? ≠ some d.closingQuote) ∧
    (∀ text s rest, readEnclosed '\'' '\'' text = some (s, rest) ↔
      text = stringLiteral s ++ rest ∧ rest.toList.head? ≠ some '\'') ∧
    (∀ text s rest, readEnclosed '\'' '\'' text = some (s, rest) ↔
      text = d.literal (.text s) ++ rest ∧ rest.toList.head? ≠ some '\'') ∧
    (∀ name name' rest rest', rest.toList.head? ≠ some d.closingQuote →
      rest'.toList.head? ≠ some d.closingQuote →
      d.quoteName name ++ rest = d.quoteName name' ++ rest' → name = name' ∧ rest = rest') ∧
    Function.Injective d.quoteName ∧ Function.Injective stringLiteral := by
  refine ⟨fun _ _ _ => readEnclosed_eq_some_iff, fun _ _ _ => readEnclosed_eq_some_iff,
    fun _ _ _ => readEnclosed_eq_some_iff, fun _ _ _ _ h h' same => ?_, ?_, ?_⟩
  · exact enclosed_append_inj h h' same
  · exact enclosed_injective _ _
  · exact enclosed_injective _ _

end RowGraph.Dialect
