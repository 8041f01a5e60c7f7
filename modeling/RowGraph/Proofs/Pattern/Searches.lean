import RowGraph.Proofs.Compile.Parts
import RowGraph.Proofs.Pattern.Matching
import RowGraph.Sample

/-!
# Searches find the text that they are given

A search for a text becomes a pattern, in which the wildcards and the escape character have an
escape character in front. So the pattern finds the text itself and nothing else, wherever the
percent sign and the underscore are the only wildcards: this holds of every text, also of one that
ends with the escape character.

The opening bracket has no escape character in front. An engine that reads it as the beginning of a
set, as SQL Server does, finds other texts than the one with the bracket.

Results:
* `signs?_emitted`: how the pattern of a search is read.
* **`Compiler.search_finds_text`**: without sets a search finds its text and nothing else.
* **`Compiler.search_with_sets`**: with sets it does so exactly if the text has no opening bracket.
-/

namespace RowGraph

open Attempt Pattern
open Dialect (wildcardEscape escapeWildcard escapeWildcards)

namespace LikeKind

/-- Where a search has to find the text `p`. -/
def Finds (kind : LikeKind) (p s : List Char) : Prop :=
  match kind with
  | .startsWith => p <+: s
  | .endsWith => p <:+ s
  | .contains => p <:+: s

instance (kind : LikeKind) (p s : List Char) : Decidable (kind.Finds p s) :=
  match kind with
  | .startsWith => inferInstanceAs (Decidable (p <+: s))
  | .endsWith => inferInstanceAs (Decidable (p <:+ s))
  | .contains => inferInstanceAs (Decidable (p <:+: s))

variable (kind : LikeKind)

theorem finds_self (p : List Char) : kind.Finds p p := by
  cases kind with
  | startsWith => exact List.prefix_rfl
  | endsWith => exact List.suffix_rfl
  | contains => exact List.infix_rfl

theorem length_le_of_finds {kind : LikeKind} {p s : List Char} (h : kind.Finds p s) :
    p.length ≤ s.length := by
  cases kind with
  | startsWith => exact List.IsPrefix.length_le h
  | endsWith => exact List.IsSuffix.length_le h
  | contains => exact List.IsInfix.length_le h

/-- The pattern that a search for a text becomes. -/
def emitted (p : String) : String := kind.pattern (escapeWildcards p)

/-- The characters of that pattern. -/
def signs (p : List Pattern.Sign) : List Pattern.Sign :=
  match kind with
  | .startsWith => p ++ [.bare '%']
  | .endsWith => .bare '%' :: p
  | .contains => .bare '%' :: (p ++ [.bare '%'])

end LikeKind

/-! ## How the pattern of a search is read -/

namespace Pattern

/-- How a character of the text is read back from the pattern. -/
def literalSign (c : Char) : Pattern.Sign :=
  if c = wildcardEscape || c = '%' || c = '_' then .escaped c else .bare c

/-- The escape character and the two wildcards are escaped, and nothing else is. -/
theorem literalSign_cases (c : Char) :
    literalSign c = .escaped c ∧ escapeWildcard c = [wildcardEscape, c] ∨
      literalSign c = .bare c ∧ escapeWildcard c = [c] ∧
        c ≠ wildcardEscape ∧ c ≠ '%' ∧ c ≠ '_' := by
  unfold literalSign escapeWildcard
  split
  · exact .inl ⟨rfl, rfl⟩
  · next other =>
    simp only [Bool.or_eq_true, decide_eq_true_eq, not_or, and_assoc] at other
    exact .inr ⟨rfl, rfl, other⟩

theorem element_literalSign (c : Char) : (literalSign c).element = .exactly c := by
  obtain ⟨sign, -⟩ | ⟨sign, -, -, percent, underscore⟩ := literalSign_cases c
  · rw [sign, Pattern.Sign.element]
  · rw [sign, Pattern.Sign.element, if_neg percent, if_neg underscore]

theorem literalSign_ne_percent (c : Char) : literalSign c ≠ .bare '%' := by
  obtain ⟨sign, -⟩ | ⟨sign, -, -, percent, -⟩ := literalSign_cases c
  · rw [sign]
    nofun
  · rw [sign]
    exact fun same => percent (Pattern.Sign.bare.inj same)

/-- An opening bracket is not escaped. -/
theorem literalSign_eq_bracket_iff {c : Char} : literalSign c = .bare '[' ↔ c = '[' := by
  constructor
  · intro bracket
    obtain ⟨sign, -⟩ | ⟨sign, -⟩ := literalSign_cases c
    · cases sign.symm.trans bracket
    · exact Pattern.Sign.bare.inj (sign.symm.trans bracket)
  · rintro rfl
    rfl

/-- Every character of the text is read as itself. -/
theorem signs?_literal (p tail : List Char) :
    signs? wildcardEscape (p.flatMap escapeWildcard ++ tail) =
      (signs? wildcardEscape tail).map (p.map literalSign ++ ·) := by
  induction p with
  | nil => simp
  | cons c p ih =>
    have head : ∀ rest, signs? wildcardEscape (escapeWildcard c ++ rest) =
        (signs? wildcardEscape rest).map (literalSign c :: ·) := by
      intro rest
      obtain ⟨sign, written⟩ | ⟨sign, written, escape, -⟩ := literalSign_cases c
      · rw [sign, written]
        exact signs?_escaped c rest
      · rw [sign, written]
        exact signs?_bare escape rest
    rw [List.flatMap_cons, List.append_assoc, head, ih, Option.map_map]
    rfl

/-- **The pattern of a search is read as the text that is searched**, with percent signs around. -/
theorem signs?_emitted (kind : LikeKind) (p : String) :
    signs? wildcardEscape (kind.emitted p).toList =
      some (kind.signs (p.toList.map literalSign)) := by
  have percent : ∀ rest, signs? wildcardEscape ('%' :: rest) =
      (signs? wildcardEscape rest).map (.bare '%' :: ·) := signs?_bare (by decide)
  have ending := signs?_literal p.toList ['%']
  have alone := signs?_literal p.toList []
  rw [percent, signs?] at ending
  rw [signs?, List.append_nil] at alone
  cases kind with
  | startsWith =>
    simpa [LikeKind.emitted, LikeKind.pattern, LikeKind.signs, escapeWildcards] using ending
  | endsWith =>
    simp [LikeKind.emitted, LikeKind.pattern, LikeKind.signs, escapeWildcards, percent, alone]
  | contains =>
    simp [LikeKind.emitted, LikeKind.pattern, LikeKind.signs, escapeWildcards, percent, ending]

/-- Without sets, the pattern matches what the search is for. -/
theorem matches_signs_iff (kind : LikeKind) (p s : List Char) :
    Matches ((kind.signs (p.map literalSign)).map Pattern.Sign.element) s ↔ kind.Finds p s := by
  have percent : Pattern.Sign.element (.bare '%') = .any := rfl
  have literal : (p.map literalSign).map Pattern.Sign.element = p.map .exactly := by
    simp [element_literalSign]
  cases kind with
  | startsWith =>
    rw [LikeKind.signs, List.map_append, literal, List.map_singleton, percent,
      matches_exactly_iff]
    constructor
    · rintro ⟨rest, rfl, -⟩
      exact List.prefix_append p rest
    · rintro ⟨rest, rfl⟩
      exact ⟨rest, rfl, matches_any rest⟩
  | endsWith =>
    rw [LikeKind.signs, List.map_cons, literal, percent, matches_any_iff]
    constructor
    · rintro ⟨skipped, rest, rfl, h⟩
      rw [(matches_map_exactly_iff p).mp h]
      exact List.suffix_append skipped p
    · rintro ⟨skipped, rfl⟩
      exact ⟨skipped, p, rfl, (matches_map_exactly_iff p).mpr rfl⟩
  | contains =>
    rw [LikeKind.signs, List.map_cons, List.map_append, literal, List.map_singleton, percent,
      matches_any_iff]
    simp only [matches_exactly_iff]
    constructor
    · rintro ⟨skipped, _, rfl, rest, rfl, -⟩
      exact ⟨skipped, rest, by rw [List.append_assoc]⟩
    · rintro ⟨skipped, rest, rfl⟩
      exact ⟨skipped, p ++ rest, by rw [List.append_assoc], rest, rfl, matches_any rest⟩

/-! ## What the characters of a pattern take -/

theorem bracket_mem_signs_iff {kind : LikeKind} {p : List Char} :
    .bare '[' ∈ kind.signs (p.map literalSign) ↔ '[' ∈ p := by
  cases kind <;> simp [LikeKind.signs, literalSign_eq_bracket_iff]

theorem solid_literalSigns (p : List Char) : solid (p.map literalSign) = p.length := by
  induction p with
  | nil => rfl
  | cons c p ih =>
    rw [List.map_cons, solid_cons, if_neg (literalSign_ne_percent c), ih, List.length_cons,
      Nat.add_comm]

/-- The percent signs around the text take no character. -/
theorem solid_signs (kind : LikeKind) (p : List Char) :
    solid (kind.signs (p.map literalSign)) = p.length := by
  rw [← solid_literalSigns p]
  cases kind <;> simp [LikeKind.signs, solid]

end Pattern

/-! ## The texts that a search finds -/

namespace LikeKind

variable {kind : LikeKind} {p s : String}

theorem matches_emitted_iff {w : Wildcards} :
    w.Matches wildcardEscape (kind.emitted p) s ↔
      ∃ es, w.elements? (kind.signs (p.toList.map literalSign)) = some es ∧
        Pattern.Matches es s.toList := by
  constructor
  · rintro ⟨signs, es, read, elements, h⟩
    obtain rfl := Option.some.inj ((signs?_emitted kind p).symm.trans read)
    exact ⟨es, elements, h⟩
  · rintro ⟨es, elements, h⟩
    exact ⟨_, es, signs?_emitted kind p, elements, h⟩

/-- Elements that stand for the characters one by one match what the search is for. -/
theorem matches_emitted_iff_of_elements {w : Wildcards}
    (elements : w.elements? (kind.signs (p.toList.map literalSign)) =
      some ((kind.signs (p.toList.map literalSign)).map Pattern.Sign.element)) :
    w.Matches wildcardEscape (kind.emitted p) s ↔ kind.Finds p.toList s.toList := by
  rw [matches_emitted_iff, elements, ← matches_signs_iff]
  simp

theorem sets_matches_emitted_iff (noBracket : '[' ∉ p.toList) :
    Wildcards.sets.Matches wildcardEscape (kind.emitted p) s ↔
      kind.Finds p.toList s.toList :=
  matches_emitted_iff_of_elements <| elementsWithSets?_of_no_bracket fun bracket =>
    noBracket (bracket_mem_signs_iff.mp bracket)

/-- **A search for a text with a bracket goes wrong where brackets open sets**: the text itself is
not found, or another one is, in which a single character takes the place of a set. -/
theorem wrong_of_bracket (bracket : '[' ∈ p.toList) :
    ¬ Wildcards.sets.Matches wildcardEscape (kind.emitted p) p ∨
      ∃ s, Wildcards.sets.Matches wildcardEscape (kind.emitted p) s ∧
        ¬ kind.Finds p.toList s.toList := by
  by_cases found : Wildcards.sets.Matches wildcardEscape (kind.emitted p) p
  · right
    obtain ⟨es, elements, h⟩ := matches_emitted_iff.mp found
    obtain ⟨shortest, matched, length⟩ := h.exists_shortest
    refine ⟨.ofList shortest, matches_emitted_iff.mpr ⟨es, elements, by simpa using matched⟩, ?_⟩
    intro finds
    have short := width_lt_of_bracket (bracket_mem_signs_iff.mpr bracket) elements
    have long := length_le_of_finds finds
    rw [solid_signs] at short
    rw [String.toList_ofList, length] at long
    omega
  · exact .inl found

end LikeKind

/-! ## Compiled searches -/

namespace Compiler

variable (t : Compiler) (x : Context) (before : List Nat) (kind : LikeKind) {e pattern : Expr}
  {p : String}

/-- Wherever the search stands, it compiles exactly if the searched part does, and compares it with
this pattern, behind which the escape character is named. -/
def SendsPattern (e pattern : Expr) (sent : String) : Prop :=
  ∀ f after, Runs (t.part x (.like kind e pattern)) before f after ↔
    ∃ g, Runs (t.part x.value e) (before ++ pattern.ownReads) g after ∧
      f = g.wrap "(" " LIKE " ++ .param (.text sent) ++
        .sql (" ESCAPE " ++ Text.stringLiteral (.singleton wildcardEscape) ++ ")")

theorem sendsPattern_emitted (text : t.valueAt before pattern = some (.text p)) :
    t.SendsPattern x before kind e pattern (kind.emitted p) := by
  intro f after
  rw [Runs, ending_like_of_text t text]
  refine runs_return.trans (exists_congr fun g => and_congr_right fun _ => eq_comm.trans ?_)
  rfl

/-- **A search finds its text and nothing else**, whatever the dialect and the text, as long as the
percent sign and the underscore are the only wildcards. The text is sent as a pattern, which never
ends with an escape character that has nothing behind it, and which matches exactly the texts that
begin with the searched one, end with it or contain it. -/
theorem search_finds_text (text : t.valueAt before pattern = some (.text p)) :
    t.SendsPattern x before kind e pattern (kind.emitted p) ∧
      (∀ position, t.compile position (.like kind e pattern) =
        t.part (Context.top position) (.like kind e pattern)) ∧
      (signs? wildcardEscape (kind.emitted p).toList).isSome = true ∧
      ∀ s, Wildcards.standard.Matches wildcardEscape (kind.emitted p) s ↔
        kind.Finds p.toList s.toList := by
  refine ⟨t.sendsPattern_emitted x before kind text, fun position => ?_, ?_, fun s => ?_⟩
  · cases position <;> rfl
  · rw [signs?_emitted]
    rfl
  · exact LikeKind.matches_emitted_iff_of_elements rfl

/-- **Where brackets open sets, a search finds its text and nothing else exactly if there is no
opening bracket in the text**: only the other two wildcards have an escape character in front. -/
theorem search_with_sets (text : t.valueAt before pattern = some (.text p)) :
    t.SendsPattern x before kind e pattern (kind.emitted p) ∧
      ((∀ s, Wildcards.sets.Matches wildcardEscape (kind.emitted p) s ↔
        kind.Finds p.toList s.toList) ↔ '[' ∉ p.toList) := by
  refine ⟨t.sendsPattern_emitted x before kind text, fun right bracket => ?_,
    fun noBracket s => ?_⟩
  · obtain missed | ⟨s, found, wrong⟩ := LikeKind.wrong_of_bracket bracket
    · exact missed ((right p).mpr (kind.finds_self _))
    · exact wrong ((right s).mp found)
  · exact LikeKind.sets_matches_emitted_iff noBracket

end Compiler

namespace Sample

/-- The name of a team. -/
def teamName : Expr := .column ⟨type "Team", "Name"⟩

/-- A compiler of filters on teams in which a rebate has been captured. -/
def rebates : Compiler :=
  ⟨catalog, .mySql, ⟨[⟨type "Team", none⟩]⟩, none, fun _ _ => .text "50%_off^"⟩

/-- Teams that are called like a rebate, with both wildcards and the escape character in the
name. -/
theorem search_rebate :
    let sent := LikeKind.startsWith.emitted "50%_off^"
    rebates.valueAt [] (.captured 0) = some (.text "50%_off^") ∧ sent = "50^%^_off^^%" ∧
      (rebates.compile .predicate (.like .startsWith teamName (.captured 0))).outcome =
        .ok ((Fragment.sql "\x60Team\x60.\x60Name\x60").wrap "(" " LIKE " ++
          .param (.text sent) ++ .sql " ESCAPE '^')") ∧
      Wildcards.standard.Matches wildcardEscape sent "50%_off^ today" ∧
      ¬ Wildcards.standard.Matches wildcardEscape sent "50 percent off^" := by
  intro sent
  have text : rebates.valueAt [] (.captured 0) = some (.text "50%_off^") := rfl
  obtain ⟨sends, whole, -, found⟩ :=
    rebates.search_finds_text (Context.top .predicate) [] .startsWith text (e := teamName)
  have name : Runs (rebates.part (Context.top .predicate).value teamName) [0]
      (.sql "\x60Team\x60.\x60Name\x60") [0] := rfl
  refine ⟨text, by decide, ?_, (found _).mpr (by decide), fun other => ?_⟩
  · rw [whole]
    exact congrArg Prod.fst ((sends _ _).mpr ⟨_, name, rfl⟩)
  · have wrong := (found _).mp other
    revert wrong
    decide

/-- A compiler of filters on teams for an engine in which brackets open sets. -/
def bracketed : Compiler :=
  ⟨catalog, .sqlServer, ⟨[⟨type "Team", none⟩]⟩, none, fun _ _ => .null⟩

/-- A closing bracket opens nothing. -/
theorem search_closing_bracket :
    let p := "1] %"
    bracketed.valueAt [] (.literal (.text p)) = some (.text p) ∧ '[' ∉ p.toList ∧
      ∀ s, Wildcards.sets.Matches wildcardEscape (LikeKind.endsWith.emitted p) s ↔
        LikeKind.endsWith.Finds p.toList s.toList := by
  intro p
  have text : bracketed.valueAt [] (.literal (.text p)) = some (.text p) := rfl
  have noBracket : '[' ∉ p.toList := by decide
  obtain ⟨-, found⟩ :=
    bracketed.search_with_sets (Context.top .predicate) [] .endsWith text (e := teamName)
  exact ⟨text, noBracket, found.mpr noBracket⟩

/-- **A name in brackets is taken for a set**: the search finds all names that begin with the letter
and none that begins with the brackets. -/
theorem search_opening_bracket :
    let sent := LikeKind.startsWith.emitted "[a]"
    sent = "[a]%" ∧
      (bracketed.compile .predicate
        (.like .startsWith teamName (.literal (.text "[a]")))).outcome =
        .ok ((Fragment.sql "[Team].[Name]").wrap "(" " LIKE " ++
          .param (.text sent) ++ .sql " ESCAPE '^')") ∧
      Wildcards.sets.Matches wildcardEscape sent "apple" ∧
      ¬ LikeKind.startsWith.Finds "[a]".toList "apple".toList ∧
      ¬ Wildcards.sets.Matches wildcardEscape sent "[a] team" ∧
      LikeKind.startsWith.Finds "[a]".toList "[a] team".toList := by
  intro sent
  have elements : Wildcards.sets.elements?
      (LikeKind.startsWith.signs ("[a]".toList.map literalSign)) =
        some [.one (CharSet.ofSigns [.bare 'a']).contains, .any] := rfl
  refine ⟨by decide, rfl, ?_, by decide, ?_, by decide⟩
  · refine LikeKind.matches_emitted_iff.mpr ⟨_, elements, ?_⟩
    exact .one (by decide) (matches_any "pple".toList)
  · intro found
    obtain ⟨es, again, h⟩ := LikeKind.matches_emitted_iff.mp found
    obtain rfl := Option.some.inj (elements.symm.trans again)
    obtain ⟨c, rest, same, inSet, -⟩ := matches_one_iff.mp h
    have first : '[' = c := Option.some.inj (congrArg List.head? same)
    rw [← first] at inSet
    revert inSet
    decide

end Sample

end RowGraph
